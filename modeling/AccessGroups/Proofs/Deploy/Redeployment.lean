import AccessGroups.Proofs.Deploy.Joining

/-!
Deploying again. A service that has been deployed is left exactly as it is by a second deployment: all names
that it asks for are taken by now. What was a permission is skipped in silence and what was a role is refused
for its name, so that a service without roles can be deployed any number of times.
-/

set_option autoImplicit false

namespace AccessGroups

theorem Entries.put_of_get?_eq_some {β : Type} {es : Entries β} {key : Value} {v : β}
    (found : get? es key = some v) : put es key v = es := by
  induction es with
  | nil => cases found
  | cons e rest ih =>
    obtain ⟨k, w⟩ := e
    by_cases same : Value.same k key = true
    · simp only [get?, same, ↓reduceIte, Option.some.injEq] at found
      simp only [put, same, ↓reduceIte, found]
    · simp only [get?, same, Bool.false_eq_true, ↓reduceIte] at found
      simp only [put, same, Bool.false_eq_true, ↓reduceIte, ih found]

namespace Deploy

/-- Nothing is linked for a collection that has not grown. -/
theorem linkAdded_self (groups : List ResolvedGroup) (c : Template.Collection) (links : Links) :
    linkAdded groups c c links = links := by
  have none : addedNames c c = [] := by
    obtain ⟨backing⟩ := c
    cases backing with
    | map es => simp [addedNames, Entries.keys]
    | _ => rfl
  simp [linkAdded, none]

namespace OpenResources

variable (service : Entries Value) (r : OpenResources) (after : Template.Collection)

theorem member_putBack {name : String} (other : name ≠ "resources") :
    (Value.map (putBack service r after)).member name = (Value.map service).member name := by
  simp [Value.member, putBack, blockKey, Entries.get?_put_text, other.symm]

theorem functionsOf_putBack :
    functionsOf (.map (putBack service r after)) = functionsOf (.map service) :=
  member_putBack service r after (by decide)

theorem accessOf_putBack :
    accessOf (.map (putBack service r after)) = accessOf (.map service) := by
  rw [accessOf, member_putBack service r after (by decide), accessOf]

/-- The block in which a collection has been put back. -/
def blockWith (r : OpenResources) (after : Template.Collection) : Entries Value :=
  Entries.put r.block collectionKey after.backing

theorem get?_blockWith :
    Entries.get? (r.blockWith after) collectionKey = some after.backing := by
  simp [blockWith, collectionKey, Entries.get?_put_text]

theorem get?_putBack :
    Entries.get? (putBack service r after) blockKey = some (.map (r.blockWith after)) := by
  simp [putBack, blockWith, blockKey, Entries.get?_put_text]

theorem ofService_putBack (present : after.backing ≠ .null) :
    ofService (putBack service r after) = .ok ⟨r.blockWith after, after⟩ := by
  unfold ofService
  simp only [get?_putBack, Option.getD_some, bind, Except.bind, get?_blockWith]
  rfl

theorem putBack_putBack :
    putBack (putBack service r after) ⟨r.blockWith after, after⟩ after =
      putBack service r after := by
  have inner : Entries.put (r.blockWith after) collectionKey after.backing = r.blockWith after :=
    Entries.put_of_get?_eq_some (get?_blockWith r after)
  have outer := Entries.put_of_get?_eq_some (get?_putBack service r after)
  rw [putBack, inner, outer]

end OpenResources

/-- A directive of a joined group asks for a role under a name that is taken in the template resources of
the service. -/
def AsksForTaken (service : Value) : Prop :=
  ∃ group, IsJoined service group ∧ ∃ directive ∈ (group.2.member "role").oneOrMany,
    (resourceEntries service).has
      (.text (Identifier.roleResourceName (directive.member "name").display)) = true

/-- The names that joined groups ask for are those that the resolved groups ask for. -/
theorem asksForTaken_iff {scheme : Identifier.IdScheme} {service : Value}
    {groups functions : Entries Value} (declares : (accessOf service).member "groups" = .map groups)
    (declared : functionsOf service = .map functions) (distinct : DistinctGroups service)
    (resolved : (resolve scheme (.map groups) (.map functions)).fault? = none) :
    AsksForTaken service ↔
      ∃ name, NamesRole ((resolvedGroups scheme groups functions).map Prod.snd) name ∧
        (resourceEntries service).has (.text name) = true := by
  have named := namesRole_iff declares declared distinct resolved
  rw [groups_of_resolved declares distinct resolved] at named
  simp only [AsksForTaken, named]
  constructor
  · rintro ⟨group, joined, directive, stated, used⟩
    exact ⟨_, ⟨group, joined, directive, stated, rfl⟩, used⟩
  · rintro ⟨name, ⟨group, joined, directive, stated, rfl⟩, used⟩
    exact ⟨group, joined, directive, stated, used⟩

namespace Plugin

/-- A service to which a deployment adds nothing: it is refused for a role whose name is taken, if there is
one, and succeeds otherwise. -/
structure Settled (p : Plugin) (service : Linked) : Prop where
  fixed : (p.deploy service).reached.service = service
  refused : AsksForTaken service.value →
    ∃ group role, (p.deploy service).fault? = some (.config (.duplicateRole group role))
  free : ¬ AsksForTaken service.value → (p.deploy service).fault? = none

/-- A deployment, failing or not, leaves what the service declares as it is. -/
theorem deploy_declarations (p : Plugin) (service : Linked) :
    functionsOf (p.deploy service).reached.service.value = functionsOf service.value ∧
      accessOf (p.deploy service).reached.service.value = accessOf service.value := by
  have course := deploy_course p service
  generalize p.deploy service = run at *
  cases course with
  | idle => exact ⟨rfl, rfl⟩
  | halted events fault => exact ⟨rfl, rfl⟩
  | @emitted es functions groups resources stands declared given accepted resolved opened =>
    rw [emitInto_value p _ _ opened, stands]
    exact ⟨OpenResources.functionsOf_putBack _ _ _, OpenResources.accessOf_putBack _ _ _⟩

/-- A service with something to do is ready for its resources where a deployment succeeds. -/
theorem ready_of_succeeded (p : Plugin) {service : Linked} {functions groups : Entries Value}
    (declared : functionsOf service.value = .map functions)
    (declares : (accessOf service.value).member "groups" = .map groups)
    (succeeded : (p.deploy service).fault? = none) :
    ∃ es, p.Ready service.value es functions (.map groups) := by
  cases deploy_reach p declared (Value.ne_null_of_member_map declares) with
  | refused refused stopped => exact absurd (succeeded.symm.trans stopped) (by simp)
  | unresolved accepted unresolved stopped =>
    exact absurd (succeeded.symm.trans stopped) (by simp)
  | @ready es others ready =>
    obtain rfl : others = .map groups :=
      (groups_of_declaredGroups ready.accepted).1.symm.trans declares
    exact ⟨es, ready⟩

/-- A deployment that opens what stands in the service and adds nothing to it leaves the service as it is. -/
theorem deploy_of_standing (p : Plugin) {service : Linked} {es functions : Entries Value}
    {groups : Value} (ready : p.Ready service.value es functions groups) {resources : OpenResources}
    (opened : OpenResources.ofService es = .ok resources)
    (standing : resources.putBack es resources.collection = es)
    (kept : (emit p.hasHostLog
      ((resolve p.scheme groups (.map functions)).reached.groups.map Prod.snd)
      resources.collection).reached.resources = resources.collection) :
    (p.deploy service).reached.service = service ∧
      (p.deploy service).fault? = (emit p.hasHostLog
        ((resolve p.scheme groups (.map functions)).reached.groups.map Prod.snd)
        resources.collection).fault? := by
  obtain ⟨value, links⟩ := service
  obtain rfl : value = .map es := ready.stands
  rw [deploy_of_opened p ready opened]
  simp only [kept, standing, linkAdded_self, and_self]

section Ready

variable (p : Plugin) {service : Linked} {es functions groups : Entries Value}
  (texts : p.scheme.GivesTexts) (distinct : DistinctGroups service.value)
  (receptive : Receptive service.value) (ready : p.Ready service.value es functions (.map groups))
  (succeeded : (p.deploy service).fault? = none)

include texts distinct receptive ready succeeded

/-- What a deployment leaves behind that has succeeded with something to do: resources that are opened and
put back as they stand, and over which the same pass is a repetition. -/
theorem exists_standing :
    ∃ after resources fs gs, (p.deploy service).reached.service.value = .map after ∧
      OpenResources.ofService after = .ok resources ∧
      resources.putBack after resources.collection = after ∧
      resources.collection = ⟨.map gs⟩ ∧
      (emit p.hasHostLog ((resolvedGroups p.scheme groups functions).map Prod.snd)
        ⟨.map fs⟩).fault? = none ∧
      (emit p.hasHostLog ((resolvedGroups p.scheme groups functions).map Prod.snd)
        ⟨.map fs⟩).reached.resources = ⟨.map gs⟩ := by
  obtain ⟨declares, -, -⟩ := groups_of_declaredGroups ready.accepted
  obtain ⟨resources, fs, opened, collection⟩ := (ready.stands ▸ receptive).opened
  rw [deploy_of_opened p ready opened, collection,
    groups_of_resolved declares distinct ready.resolved] at succeeded ⊢
  have left := emit_added p.hasHostLog fs (resolvedGroups_texts texts groups functions) succeeded
  simp only [left]
  exact ⟨_, _, fs, _, rfl, OpenResources.ofService_putBack es resources _ (by simp),
    OpenResources.putBack_putBack es resources _, rfl, succeeded, left⟩

/-- A deployment that succeeds with something to do settles the service. -/
theorem settled_of_ready : p.Settled (p.deploy service).reached.service := by
  obtain ⟨after, resources, fs, gs, value, opened, standing, mapping, emitted, left⟩ :=
    exists_standing p texts distinct receptive ready succeeded
  obtain ⟨functionsKept, accessKept⟩ := deploy_declarations p service
  generalize (p.deploy service).reached.service = again at *
  obtain ⟨kept, refused, free⟩ :=
    emit_emitted (resolvedGroups_texts texts groups functions) emitted left
  -- The service that is left is ready once more, with the same groups and memberships.
  have still : p.Ready again.value after functions (.map groups) :=
    ⟨value, functionsKept.trans ready.declared, accessKept ▸ ready.accepted, ready.resolved⟩
  obtain ⟨declares, -, -⟩ := groups_of_declaredGroups still.accepted
  have apart : DistinctGroups again.value := by
    intro others given
    exact distinct others (by rw [← accessKept, given])
  have same := groups_of_resolved declares apart still.resolved
  obtain ⟨unchanged, outcome⟩ := deploy_of_standing p still opened standing
    (by rw [same, mapping]; exact kept)
  have taken : resourceEntries again.value = gs := by
    rw [value]
    exact OpenResources.resourceEntries_of_opened opened mapping
  have asks := asksForTaken_iff declares still.declared apart still.resolved
  rw [taken] at asks
  refine ⟨unchanged, ?_, ?_⟩ <;> rw [outcome, same, mapping, asks]
  · exact refused
  · exact free

end Ready

/-- A deployment that succeeds without functions and groups leaves the service as it is. -/
theorem deploy_unassigned (p : Plugin) {service : Linked}
    (unassigned : ∀ functions groups, functionsOf service.value = .map functions →
      (accessOf service.value).member "groups" ≠ .map groups)
    (succeeded : (p.deploy service).fault? = none) : (p.deploy service).reached.service = service := by
  have course := deploy_course p service
  generalize p.deploy service = run at *
  cases course with
  | idle => rfl
  | halted events fault => cases succeeded
  | @emitted es functions groups resources stands declared given accepted resolved opened =>
    cases groups with
    | map groups =>
      exact absurd (groups_of_declaredGroups accepted).1 (unassigned functions groups declared)
    | _ => cases resolved

theorem settled_of_succeeded (p : Plugin) {service : Linked} (texts : p.scheme.GivesTexts)
    (distinct : DistinctGroups service.value) (receptive : Receptive service.value)
    (succeeded : (p.deploy service).fault? = none) :
    p.Settled (p.deploy service).reached.service := by
  by_cases assigned : ∃ functions groups, functionsOf service.value = .map functions ∧
      (accessOf service.value).member "groups" = .map groups
  · obtain ⟨functions, groups, declared, declares⟩ := assigned
    obtain ⟨es, ready⟩ := ready_of_succeeded p declared declares succeeded
    exact settled_of_ready p texts distinct receptive ready succeeded
  · have unassigned : ∀ functions groups, functionsOf service.value = .map functions →
        (accessOf service.value).member "groups" ≠ .map groups :=
      fun functions groups declared declares => assigned ⟨functions, groups, declared, declares⟩
    have fixed := deploy_unassigned p unassigned succeeded
    rw [fixed]
    refine ⟨fixed, ?_, fun _ => succeeded⟩
    rintro ⟨group, ⟨⟨groups, declares, -⟩, functions, declared, -⟩, -⟩
    exact absurd declares (unassigned functions groups declared)

theorem actAll_of_fixed (p : Plugin) {service : Linked}
    (fixed : (p.deploy service).reached.service = service)
    (succeeded : (p.deploy service).fault? = none) (times : Nat) :
    ∀ run ∈ p.actAll service (List.replicate times .deploy),
      run.fault? = none ∧ run.reached.service = service := by
  induction times with
  | zero =>
    intro run member
    cases member
  | succ times ih =>
    intro run member
    rw [List.replicate_succ, actAll] at member
    rcases List.mem_cons.mp member with rfl | later
    · exact ⟨succeeded, fixed⟩
    · exact ih run (by rwa [act, fixed] at later)

/-- Where a deployment of a service has succeeded, a second one leaves the service exactly as it is, and it
succeeds unless a directive of a joined group asks for a role under a name that is taken by now. So joined
groups without roles can be deployed any number of times. -/
theorem deploy_twice (p : Plugin) (service : Linked) (texts : p.scheme.GivesTexts)
    (distinct : DistinctGroups service.value) (receptive : Receptive service.value)
    (succeeded : (p.deploy service).fault? = none) :
    p.Settled (p.deploy service).reached.service ∧
      ((∀ group, IsJoined service.value group → (group.2.member "role").oneOrMany = []) →
        ∀ times, ∀ run ∈ p.actAll service (List.replicate times .deploy),
          run.fault? = none ∧ run.reached.service = (p.deploy service).reached.service) := by
  have settled := settled_of_succeeded p texts distinct receptive succeeded
  refine ⟨settled, ?_⟩
  intro unroled times run member
  obtain ⟨functionsKept, accessKept⟩ := deploy_declarations p service
  have clear : ¬ AsksForTaken (p.deploy service).reached.service.value := by
    rintro ⟨group, joined, directive, stated, -⟩
    rw [unroled group (joined.of_declarations functionsKept accessKept)] at stated
    cases stated
  cases times with
  | zero => cases member
  | succ times =>
    rw [List.replicate_succ, actAll] at member
    rcases List.mem_cons.mp member with rfl | later
    · exact ⟨succeeded, rfl⟩
    · exact actAll_of_fixed p settled.fixed (settled.free clear) times run later

end Plugin

theorem declaredService_distinct : DistinctGroups declaredService.value := by
  intro groups declares
  obtain rfl : declaredGroups = groups := Value.map.inj declares
  exact declaredGroups_distinct

/-- A service with the first of the declared groups only, which has no role. -/
def rolelessService : Linked :=
  .ofValue (.object
    [("provider", .object [("access", .object [("groups", .map (declaredGroups.take 1))])]),
      ("functions", .object [("load", .object [("allowAccess", .text "api")])])])

theorem rolelessService_distinct : DistinctGroups rolelessService.value := by
  intro groups declares
  obtain rfl : declaredGroups.take 1 = groups := Value.map.inj declares
  exact declaredGroups_distinct.sublist (List.take_sublist 1 declaredGroups)

theorem declaredService_asksForTaken :
    AsksForTaken (checkingPlugin.deploy declaredService).reached.service.value :=
  ⟨(.text "admin", _), ⟨⟨declaredGroups, rfl, List.mem_cons_of_mem _ List.mem_cons_self⟩,
    declaredFunctions, rfl, _, List.mem_cons_self, .text "admin",
    List.mem_cons_of_mem _ List.mem_cons_self, rfl⟩, _, List.mem_cons_self, rfl⟩

/-- A service with a role is refused the second time, and one without can be deployed again and again. -/
theorem Plugin.deploy_twice_declared :
    (checkingPlugin.deploy declaredService).fault?.isNone = true ∧
      (∃ group role, (checkingPlugin.deploy
        (checkingPlugin.deploy declaredService).reached.service).fault? =
          some (.config (.duplicateRole group role))) ∧
      (checkingPlugin.deploy rolelessService).fault?.isNone = true ∧
      ∀ times, ∀ run ∈ checkingPlugin.actAll rolelessService (List.replicate times .deploy),
        run.fault? = none ∧
          run.reached.service = (checkingPlugin.deploy rolelessService).reached.service := by
  have settled := (deploy_twice checkingPlugin declaredService Identifier.defaultScheme_givesTexts
    declaredService_distinct ⟨Or.inl rfl, Or.inl rfl⟩ rfl).1
  have again := (deploy_twice checkingPlugin rolelessService Identifier.defaultScheme_givesTexts
    rolelessService_distinct ⟨Or.inl rfl, Or.inl rfl⟩ rfl).2
  refine ⟨rfl, settled.refused declaredService_asksForTaken, rfl, again ?_⟩
  rintro group ⟨⟨groups, declares, member⟩, -⟩
  obtain rfl : AccessGroups.declaredGroups.take 1 = groups := Value.map.inj declares
  obtain rfl := List.mem_singleton.mp member
  rfl

end Deploy

end AccessGroups

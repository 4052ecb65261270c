import AccessGroups.Proofs.Deploy.Course
import AccessGroups.Proofs.Group.Growth

/-!
The frame of a deployment. Of everything in a service, a deployment touches the template resources only:
it may create them where they are missing, and it appends to them. Until the memberships are resolved it
touches nothing at all, so a deployment that is refused before leaves the service as it is.
-/

set_option autoImplicit false

namespace AccessGroups.Deploy

/-- What a deployment may make of the template resources: missing ones are created, entries with new names
are appended to a mapping, and anything else is kept. -/
inductive CollectionGrown : Value → Value → Prop
  | created (added : List (String × Value)) (once : (added.map Prod.fst).Nodup) :
      CollectionGrown .null (.map (Entries.ofNamed added))
  | appended (es : Entries Value) (added : List (String × Value))
      (free : ∀ e ∈ added, e.1 ∉ es.names) (once : (added.map Prod.fst).Nodup) :
      CollectionGrown (.map es) (.map (es ++ Entries.ofNamed added))
  | kept {v : Value} (present : v ≠ .null) : CollectionGrown v v

/-- What a deployment may make of the block that holds the template resources. -/
inductive BlockGrown : Value → Value → Prop
  | created {new : Value} (grown : CollectionGrown .null new) :
      BlockGrown .null (.map [(collectionKey, new)])
  | revised {es fs : Entries Value} {old new : Value}
      (revised : Entries.Revised collectionKey old new es fs) (grown : CollectionGrown old new) :
      BlockGrown (.map es) (.map fs)

/-- What a deployment may make of a service: only its block of resources grows. -/
inductive ServiceGrown : Value → Value → Prop
  | revised {es fs : Entries Value} {old new : Value}
      (revised : Entries.Revised blockKey old new es fs) (grown : BlockGrown old new) :
      ServiceGrown (.map es) (.map fs)

namespace OpenResources

/-- The block and the collection that are opened are those of the service, or empty where these are
missing. -/
theorem ofService_eq_ok {service : Entries Value} {r : OpenResources}
    (opened : ofService service = .ok r) :
    ((Entries.get? service blockKey).getD .null = .null ∧ r.block = [] ∨
        (Entries.get? service blockKey).getD .null = .map r.block) ∧
      ((Entries.get? r.block collectionKey).getD .null = .null ∧
          r.collection = Template.Collection.empty ∨
        (Entries.get? r.block collectionKey).getD .null = r.collection.backing ∧
          r.collection.backing ≠ .null) := by
  unfold ofService at opened
  cases block : (Entries.get? service blockKey).getD .null with
  | null =>
    simp only [block, bind, Except.bind, Entries.get?_nil, Option.getD_none, pure,
      Except.pure, Except.ok.injEq] at opened
    subst opened
    simp
  | map es =>
    simp only [block, bind, Except.bind] at opened
    split at opened
    · rename_i missing
      cases opened
      exact ⟨Or.inr rfl, Or.inl ⟨missing, rfl⟩⟩
    · rename_i present
      cases opened
      exact ⟨Or.inr rfl, Or.inr ⟨rfl, present⟩⟩
  | _ => simp [block, bind, Except.bind] at opened

end OpenResources

theorem CollectionGrown.of_empty {steps : List Step} {after : Template.Collection}
    (grown : Grown steps Template.Collection.empty after) : CollectionGrown .null after.backing := by
  cases grown with
  | kept => exact .created [] List.nodup_nil
  | appended _ added _ once _ => exact .created added once

theorem CollectionGrown.of_present {steps : List Step} {before after : Template.Collection}
    (present : before.backing ≠ .null) (grown : Grown steps before after) :
    CollectionGrown before.backing after.backing := by
  cases grown with
  | kept => exact .kept present
  | appended es added free once _ => exact .appended es added free once

namespace OpenResources

theorem putBack_grown {service : Entries Value} {r : OpenResources} {steps : List Step}
    {after : Template.Collection} (opened : ofService service = .ok r)
    (grown : Grown steps r.collection after) :
    ServiceGrown (.map service) (.map (putBack service r after)) := by
  obtain ⟨block, collection⟩ := ofService_eq_ok opened
  have held : CollectionGrown ((Entries.get? r.block collectionKey).getD .null) after.backing := by
    rcases collection with ⟨missing, empty⟩ | ⟨same, present⟩
    · rw [missing]
      exact .of_empty (empty ▸ grown)
    · rw [same]
      exact .of_present present grown
  refine .revised (Entries.revised_put service blockKey _) ?_
  rcases block with ⟨missing, empty⟩ | same
  · rw [missing, empty]
    rw [empty] at held
    exact .created held
  · rw [same]
    exact .revised (Entries.revised_put r.block collectionKey _) held

theorem resourcesOf_putBack (service : Entries Value) (r : OpenResources)
    (after : Template.Collection) :
    resourcesOf (.map (putBack service r after)) = after.backing := by
  simp only [resourcesOf, putBack, blockKey, collectionKey, Value.member, Entries.get?_put_text,
    ↓reduceIte, Option.getD_some]

theorem resourceEntries_of_opened {service es : Entries Value} {r : OpenResources}
    (opened : ofService service = .ok r) (mapping : r.collection = ⟨.map es⟩) :
    resourceEntries (.map service) = es := by
  obtain ⟨block, collection⟩ := ofService_eq_ok opened
  have resources : resourcesOf (.map service) =
      (Entries.get? r.block collectionKey).getD .null := by
    change ((Entries.get? service blockKey).getD .null).member "Resources" = _
    rcases block with ⟨missing, empty⟩ | same
    · rw [missing, empty]
      rfl
    · rw [same]
      rfl
  unfold resourceEntries
  rw [resources]
  rcases collection with ⟨missing, empty⟩ | ⟨same, -⟩
  · rw [missing]
    exact Value.map.inj (congrArg Template.Collection.backing (empty.symm.trans mapping))
  · rw [same, mapping]

end OpenResources

end AccessGroups.Deploy

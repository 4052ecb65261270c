import AccessGroups.Proofs.Group.Chain
import AccessGroups.Proofs.Group.Narrowing
import AccessGroups.Proofs.Group.Refusal

/-!
Passes in parts. Groups that are emitted after others in one pass come to the same as in a pass of their own
over what the others have left, but for the chain of permissions, which a pass begins anew: the first
permission of each function in the second part is linked with the first part in one pass and stands alone in
two.
-/

set_option autoImplicit false

namespace AccessGroups

theorem Step.textual_item {step : Step} (textual : step.Textual) {item : Item}
    (asked : step.item? = some item) : item.Textual := by
  cases step with
  | permission group function principal =>
    cases asked
    exact textual
  | role request =>
    simp only [Step.item?] at asked
    split at asked
    · cases asked
      trivial
    · cases asked
  | _ => cases asked

/-- The last permissions after items are added, in terms of what was added. -/
theorem get?_foldl_advance (chain : Entries String) {items : List Item}
    (textual : ∀ item ∈ items, item.Textual) (id : String) :
    Entries.get? (items.foldl Item.advance chain) (.text id) = lastOf chain id (linked chain items) := by
  induction items generalizing chain with
  | nil => rfl
  | cons item rest ih =>
    rw [linked, lastOf_cons chain id item (textual item List.mem_cons_self), List.foldl_cons]
    exact ih _ fun next member => textual next (List.mem_cons_of_mem _ member)

theorem Named.foldl_advance {chain : Entries String} (named : Named chain) {items : List Item}
    (textual : ∀ item ∈ items, item.Textual) : Named (items.foldl Item.advance chain) := by
  induction items generalizing chain with
  | nil => exact named
  | cons item rest ih =>
    exact ih (named.advance (textual item List.mem_cons_self))
      fun next member => textual next (List.mem_cons_of_mem _ member)

/-- What a function's permissions are called does not depend on what they are linked with. -/
theorem names_permissionsOf_linked (id : String) (chain others : Entries String) {items : List Item}
    (textual : ∀ item ∈ items, item.Textual) :
    (permissionsOf id (linked chain items)).map Prod.fst =
      (permissionsOf id (linked others items)).map Prod.fst := by
  rw [permissionsOf_linked id textual rfl, permissionsOf_linked id textual rfl, names_linked,
    names_linked]

/-- Once a permission of a function is added, its last permission does not depend on those before. -/
theorem get?_foldl_advance_congr (chain others : Entries String) {items : List Item}
    (textual : ∀ item ∈ items, item.Textual) {id : String}
    (some : permissionsOf id (linked chain items) ≠ []) :
    Entries.get? (items.foldl Item.advance chain) (.text id) =
      Entries.get? (items.foldl Item.advance others) (.text id) := by
  have both := names_permissionsOf_linked id chain others textual
  rw [get?_foldl_advance chain textual, get?_foldl_advance others textual, lastOf, lastOf,
    ← List.getLast?_map, ← List.getLast?_map, ← both]
  cases last : ((permissionsOf id (linked chain items)).map Prod.fst).getLast? with
  | none => simp [List.getLast?_eq_none_iff, some] at last
  | some name => rfl

theorem get?_foldl_advance_of_none (chain : Entries String) {items : List Item}
    (textual : ∀ item ∈ items, item.Textual) {id : String}
    (none : permissionsOf id (linked chain items) = []) :
    Entries.get? (items.foldl Item.advance chain) (.text id) = Entries.get? chain (.text id) := by
  rw [get?_foldl_advance chain textual, lastOf, none, List.getLast?_nil, Option.map_none,
    Option.none_or]

/-- A pass keeps in mind the last permission of each function that it has added. -/
theorem walk_lasts (toHost : Bool) (steps : List Step) (p : Pass) (es : Entries Value)
    (stands : p.resources = ⟨.map es⟩) (named : Named p.chain)
    (textual : ∀ step ∈ steps, step.Textual) :
    ∃ added, (Progress.walk (Pass.take toHost) p steps).reached.resources =
        ⟨.map (es ++ Entries.ofNamed added)⟩ ∧
      Named (Progress.walk (Pass.take toHost) p steps).reached.chain ∧
      ∀ id, Entries.get? (Progress.walk (Pass.take toHost) p steps).reached.chain (.text id) =
        lastOf p.chain id added := by
  induction steps generalizing p es with
  | nil => exact ⟨[], by simpa [Progress.done] using stands, named, fun id => rfl⟩
  | cons step rest ih =>
    have here := textual step List.mem_cons_self
    have later : ∀ next ∈ rest, next.Textual :=
      fun next member => textual next (List.mem_cons_of_mem _ member)
    rw [Progress.walk_cons]
    cases Pass.take_effect toHost p es stands step here with
    | stopped refused fault resources chain =>
      rw [Progress.andThen_of_stopped _ fault]
      exact ⟨[], by simpa using resources, by rwa [chain], fun id => by rw [chain]; rfl⟩
    | skipped admitted fault taken resources chain =>
      rw [Progress.andThen_of_ok _ fault, ← chain]
      exact ih _ es resources (by rwa [chain]) later
    | added item admitted fault asked free resources chain =>
      rw [Progress.andThen_of_ok _ fault]
      have known := Step.textual_item here asked
      obtain ⟨added, grown, still, lasts⟩ :=
        ih _ _ resources (by rw [chain]; exact named.advance known) later
      refine ⟨(item.name, item.resource (item.previous p.chain)) :: added, by simpa using grown,
        still, ?_⟩
      intro id
      rw [lasts, chain, lastOf_cons p.chain id item known]

/-- A run over a mapping completes no other steps than those before the first that is refused. -/
theorem Emission.before_eq {p q : Pass} {es fs : Entries Value} {steps : List Step}
    {run other : Progress Pass Fault} {before rest taken left : List Step}
    (emission : Emission p es steps run before rest) (second : Emission q fs steps other taken left)
    (names : es.names = fs.names) : before = taken := by
  have split : before ++ rest = taken ++ left := emission.steps_eq ▸ second.steps_eq
  rw [List.append_eq_append_iff] at split
  rcases split with ⟨more, rfl, tail⟩ | ⟨more, rfl, tail⟩
  · cases more with
    | nil => rw [List.append_nil]
    | cons step others =>
      have admitted := second.admitted
      rw [← names, admitted_append] at admitted
      exact absurd admitted.2.1 (emission.refused step _ tail)
  · cases more with
    | nil => rw [List.append_nil]
    | cons step others =>
      have admitted := emission.admitted
      rw [names, admitted_append] at admitted
      exact absurd admitted.2.1 (second.refused step _ tail)

/-- Resources that are added after others, in one pass with them (`joint`) and in a pass of their own
(`apart`). -/
structure Separated (earlier joint apart : List (String × Value)) : Prop where
  named : joint.map Prod.fst = apart.map Prod.fst
  /-- All but the first permission of each function are the same. -/
  same : ∀ before e other after, joint.zip apart = before ++ (e, other) :: after →
    (∀ id, Template.permitted? e.2 = some id → permissionsOf id (before.map Prod.fst) ≠ []) →
    e = other
  /-- The first permission of a function is created after the last one of the function that was added
  earlier, and after nothing in a pass of its own. -/
  first : ∀ before e other after id, joint.zip apart = before ++ (e, other) :: after →
    Template.permitted? e.2 = some id → permissionsOf id (before.map Prod.fst) = [] →
    ∃ principal previous, e.2 = Template.permission (.text id) principal previous ∧
      other.2 = Template.permission (.text id) principal .null ∧
      Template.dependsOn? other.2 = none ∧
      Template.dependsOn? e.2 = (permissionsOf id earlier).getLast?.map fun last => .text last.1

/-- The same items, linked from different last permissions, side by side. -/
theorem exists_item_of_zip_linked {chain others : Entries String} {items : List Item}
    {before after : List ((String × Value) × String × Value)} {e other : String × Value}
    (split : (linked chain items).zip (linked others items) = before ++ (e, other) :: after) :
    ∃ front item back, items = front ++ item :: back ∧
      before.map Prod.fst = linked chain front ∧
      e = (item.name, item.resource (item.previous (front.foldl Item.advance chain))) ∧
      other = (item.name, item.resource (item.previous (front.foldl Item.advance others))) := by
  induction items generalizing chain others before with
  | nil => simp [linked] at split
  | cons item rest ih =>
    simp only [linked, List.zip_cons_cons] at split
    cases before with
    | nil =>
      simp only [List.nil_append, List.cons.injEq, Prod.mk.injEq] at split
      exact ⟨[], item, rest, rfl, rfl, split.1.1.symm, split.1.2.symm⟩
    | cons pair others' =>
      simp only [List.cons_append, List.cons.injEq] at split
      obtain ⟨rfl, tail⟩ := split
      obtain ⟨front, next, back, rfl, early, here, there⟩ := ih tail
      exact ⟨item :: front, next, back, rfl, by rw [List.map_cons, early]; rfl, here, there⟩

theorem separated_linked {chain : Entries String} {items : List Item}
    (textual : ∀ item ∈ items, item.Textual) {earlier : List (String × Value)}
    (named : Named chain)
    (lasts : ∀ id, Entries.get? chain (.text id) = lastOf [] id earlier) :
    Separated earlier (linked chain items) (linked [] items) where
  named := by rw [names_linked, names_linked]
  same := by
    intro before e other after split ahead
    obtain ⟨front, item, back, rfl, early, rfl, rfl⟩ := exists_item_of_zip_linked split
    rw [early] at ahead
    have inside : ∀ next ∈ front, next.Textual :=
      fun next member => textual next (List.mem_append_left _ member)
    cases item with
    | role => rfl
    | permission function principal =>
      obtain ⟨id, rfl⟩ := textual (.permission function principal) (by simp)
      have nonempty := ahead id (Template.permitted?_permission id principal _)
      have previous : (Item.permission (.text id) principal).previous
            (front.foldl Item.advance chain) =
          (Item.permission (.text id) principal).previous (front.foldl Item.advance []) :=
        get?_foldl_advance_congr chain [] inside nonempty
      rw [previous]
  first := by
    intro before e other after id split permission none
    obtain ⟨front, item, back, rfl, early, rfl, rfl⟩ := exists_item_of_zip_linked split
    rw [early] at none
    have inside : ∀ next ∈ front, next.Textual :=
      fun next member => textual next (List.mem_append_left _ member)
    have here : item.Textual := textual item (by simp)
    obtain ⟨principal, rfl⟩ := (Item.isPermissionOf_iff id item).mp
      ((Item.permitted?_resource item here _ id).mp permission)
    have nothing : permissionsOf id (linked [] front) = [] := by
      rw [← List.map_eq_nil_iff, ← names_permissionsOf_linked id chain [] inside, none, List.map_nil]
    have alone : Entries.get? (front.foldl Item.advance []) (.text id) = Option.none :=
      get?_foldl_advance_of_none [] inside nothing
    have linked : Entries.get? (front.foldl Item.advance chain) (.text id) =
        (permissionsOf id earlier).getLast?.map Prod.fst := by
      rw [get?_foldl_advance_of_none chain inside none, lasts, lastOf, Entries.get?_nil,
        Option.or_none]
    have previous : (Item.permission (.text id) principal).previous
        (front.foldl Item.advance []) = Option.none := alone
    refine ⟨principal, _, rfl, by rw [previous]; rfl, ?_, ?_⟩
    · rw [Item.dependsOn?_resource _ _ id (by simp [Item.isPermissionOf])
        (named_nil.foldl_advance inside id), alone, Option.map_none]
    · rw [Item.dependsOn?_resource _ _ id (by simp [Item.isPermissionOf])
        (named.foldl_advance inside id), linked, Option.map_map]
      rfl

/-- Where groups have been emitted, those after them are emitted as in a pass of their own. -/
theorem emit_append_of_ok (toHost : Bool) (first second : List ResolvedGroup)
    (resources : Template.Collection) (succeeded : (emit toHost first resources).fault? = none) :
    emit toHost (first ++ second) resources =
      Progress.walk (Pass.take toHost) (emit toHost first resources).reached (plan second) := by
  have walked : emit toHost (first ++ second) resources = (emit toHost first resources).andThen
      fun p => Progress.walk (Pass.take toHost) p (plan second) := by
    rw [emit, plan, List.flatMap_append, Progress.walk_append]
    rfl
  rw [walked, Progress.andThen_of_ok _ succeeded]

/-- Groups emitted after others, over a mapping, come to the same in one pass as in two, with the same
fault if they fail; only the first permission that they add for each function is linked with the others in
one pass and with nothing in two. -/
theorem emit_append (toHost : Bool) (first second : List ResolvedGroup) (es : Entries Value)
    (texts : ∀ g ∈ first ++ second, g.HasTextIds)
    (succeeded : (emit toHost first ⟨.map es⟩).fault? = none) :
    ∃ earlier joint apart : List (String × Value),
      (emit toHost first ⟨.map es⟩).reached.resources = ⟨.map (es ++ Entries.ofNamed earlier)⟩ ∧
      (emit toHost (first ++ second) ⟨.map es⟩).fault? =
        (emit toHost second (emit toHost first ⟨.map es⟩).reached.resources).fault? ∧
      (emit toHost (first ++ second) ⟨.map es⟩).reached.resources =
        ⟨.map (es ++ Entries.ofNamed (earlier ++ joint))⟩ ∧
      (emit toHost second (emit toHost first ⟨.map es⟩).reached.resources).reached.resources =
        ⟨.map (es ++ Entries.ofNamed (earlier ++ apart))⟩ ∧
      Separated earlier joint apart := by
  have before : ∀ g ∈ first, g.HasTextIds := fun g member => texts g (List.mem_append_left _ member)
  have after : ∀ g ∈ second, g.HasTextIds := fun g member => texts g (List.mem_append_right _ member)
  have textual : ∀ step ∈ plan second, step.Textual := fun _ => textual_of_mem_plan after
  obtain ⟨earlier, resources, named, lasts⟩ :=
    walk_lasts toHost (plan first) (Pass.start ⟨.map es⟩) es rfl named_nil
      fun _ => textual_of_mem_plan before
  rw [emit_append_of_ok toHost first second _ succeeded]
  change (emit toHost first ⟨.map es⟩).reached.resources = _ at resources
  change Named (emit toHost first ⟨.map es⟩).reached.chain at named
  change ∀ id, Entries.get? (emit toHost first ⟨.map es⟩).reached.chain (.text id) = _ at lasts
  generalize (emit toHost first ⟨.map es⟩).reached = p at *
  -- Both passes begin with the same names taken, so they complete the same steps and add the same items.
  obtain ⟨done, rest, whole⟩ := walk_emission toHost (plan second) p _ resources textual
  obtain ⟨taken, left, own⟩ := emit_emission toHost second (es ++ Entries.ofNamed earlier) after
  obtain rfl : done = taken := whole.before_eq own rfl
  let items := fresh (Entries.names (es ++ Entries.ofNamed earlier)) (done.filterMap Step.item?)
  have known : ∀ item ∈ items, item.Textual := fun item member =>
    textual_of_mem_before after whole.steps_eq ((fresh_sublist _ _).subset member)
  refine ⟨earlier, linked p.chain items, linked [] items, resources, ?_, ?_, ?_,
    separated_linked known named lasts⟩
  · rw [resources, emit_fault? toHost _ after, walk_fault? toHost _ p _ resources textual]
  · rw [whole.resources, Entries.ofNamed_append, List.append_assoc]
  · rw [resources, own.resources, Entries.ofNamed_append, List.append_assoc]
    rfl

theorem emit_append_sharing :
    (∀ g ∈ sharingGroups.take 1 ++ sharingGroups.drop 1, g.HasTextIds) ∧
      (emit true (sharingGroups.take 1) ⟨.map [(.text "Table", .null)]⟩).fault? = none ∧
      ∃ earlier joint apart : List (String × Value),
        (emit true (sharingGroups.take 1) ⟨.map [(.text "Table", .null)]⟩).reached.resources =
          ⟨.map ([(.text "Table", .null)] ++ Entries.ofNamed earlier)⟩ ∧
        (emit true (sharingGroups.take 1 ++ sharingGroups.drop 1)
            ⟨.map [(.text "Table", .null)]⟩).reached.resources =
          ⟨.map ([(.text "Table", .null)] ++ Entries.ofNamed (earlier ++ joint))⟩ ∧
        (emit true (sharingGroups.drop 1) (emit true (sharingGroups.take 1)
            ⟨.map [(.text "Table", .null)]⟩).reached.resources).reached.resources =
          ⟨.map ([(.text "Table", .null)] ++ Entries.ofNamed (earlier ++ apart))⟩ ∧
        Separated earlier joint apart := by
  have texts : ∀ g ∈ sharingGroups.take 1 ++ sharingGroups.drop 1, g.HasTextIds := by
    rw [List.take_append_drop]
    exact sharingGroups_texts
  have succeeded :
      (emit true (sharingGroups.take 1) ⟨.map [(.text "Table", .null)]⟩).fault? = none := rfl
  obtain ⟨earlier, joint, apart, resources, -, whole, own, separated⟩ :=
    emit_append true (sharingGroups.take 1) (sharingGroups.drop 1) [(.text "Table", .null)] texts
      succeeded
  exact ⟨texts, succeeded, earlier, joint, apart, resources, whole, own, separated⟩

end AccessGroups

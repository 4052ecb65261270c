import AccessGroups.Proofs.Group.Directives
import AccessGroups.Proofs.Group.Growth

/-!
The order of role directives. Whatever a collection stands over and whatever the functions of a
group are, the directives of the group are taken just when each fits on its own and none has the
name of an earlier one that lists principals. A directive without principals takes no name but may
not have one that is taken, so the order of directives matters for such a directive, and only for
it.
-/

set_option autoImplicit false

namespace AccessGroups

/-- The role of the directive takes the name; a directive without principals takes none. -/
def takesName (directive : Value) (name : String) : Bool :=
  listsPrincipals directive && statedName directive == name

/-- No directive without principals stands after one that takes its name. -/
def Orderly (directives : List Value) : Prop :=
  directives.Pairwise fun earlier later =>
    listsPrincipals later = false → takesName earlier (statedName later) = false

instance (directives : List Value) : Decidable (Orderly directives) :=
  inferInstanceAs (Decidable (List.Pairwise _ directives))

/-- The directive can be taken on its own: nothing is wrong with it, its name is free, and if it lists
principals, the functions of its group can be gone through and its role can be added. -/
structure Fits (g : ResolvedGroup) (c : Template.Collection) (directive : Value) : Prop where
  sound : SoundDirective directive
  free : c.contains (.text (statedName directive)) = .ok false
  room : listsPrincipals directive = true →
    (∃ ids, g.functions = .ok ids) ∧ ∃ es : Entries Value, c = ⟨.map es⟩

namespace ResolvedGroup

/-- Nothing is wrong with a directive that asks for a role and whose principals can be read. -/
theorem sound_of_roleStep {g : ResolvedGroup} {directive : Value} {request : RoleRequest}
    {principals : List Principal} (asked : g.roleStep directive = .role request)
    (read : request.principals = .ok principals) : SoundDirective directive := by
  cases directive with
  | map es =>
    simp only [roleStep] at asked
    split at asked
    · cases asked
    · rename_i named
      rw [given?_eq] at asked
      by_cases missing : ((Value.map es).member "principals").isNull = true
      · simp only [missing, ↓reduceIte] at asked
        cases asked
      · simp only [missing, Bool.false_eq_true, ↓reduceIte] at asked
        cases asked
        rw [Bool.not_eq_true', Bool.not_eq_false] at named
        refine ⟨⟨es, rfl⟩, named, by simpa using missing, ?_⟩
        by_cases empty : (Value.map es).member "principals" = .text ""
        · intro raw listed
          rw [empty] at listed
          rw [List.mem_singleton.mp listed]
          exact ⟨_, rfl⟩
        · exact readable_of_mapM ((rolePrincipals_of_ne empty).symm.trans read)
  | _ => cases asked

end ResolvedGroup

theorem Template.Collection.contains_append (es : Entries Value) (taken name : String)
    (resource : Value) :
    contains ⟨.map (es ++ [(.text taken, resource)])⟩ (.text name) =
      (contains ⟨.map es⟩ (.text name)).map (· || taken == name) := by
  simp only [contains_map, Except.map, Entries.names_append, Entries.names_cons_text,
    Entries.names_nil, List.mem_append, List.mem_singleton, Bool.decide_or, eq_comm (a := name)]
  rfl

namespace Pass

variable {toHost : Bool} {g : ResolvedGroup} {p : Pass} {directive : Value}

/-- A directive that fits is taken, and takes its name if it lists principals. -/
theorem take_of_fits (toHost : Bool) (fits : Fits g p.resources directive) :
    (p.take toHost (g.roleStep directive)).fault? = none ∧
      (listsPrincipals directive = false ∧
          (p.take toHost (g.roleStep directive)).reached.resources = p.resources ∨
        listsPrincipals directive = true ∧ ∃ (es : Entries Value) (resource : Value),
          p.resources = ⟨.map es⟩ ∧
          (p.take toHost (g.roleStep directive)).reached.resources =
            ⟨.map (es ++ [(.text (statedName directive), resource)])⟩) := by
  have free := fits.free
  rw [ResolvedGroup.roleStep_of_sound fits.sound]
  simp only [statedName] at free
  simp only [take, addRole, free, Progress.ofExcept_mapError_ok, Bool.false_eq_true, ↓reduceIte]
  cases lists : listsPrincipals directive with
  | false =>
    rw [ResolvedGroup.rolePrincipals_of_not_lists lists]
    exact ⟨rfl, .inl ⟨rfl, rfl⟩⟩
  | true =>
    obtain ⟨⟨ids, members⟩, es, stands⟩ := fits.room lists
    obtain ⟨first, others, read⟩ := ResolvedGroup.rolePrincipals_of_lists fits.sound lists
    rw [stands, Template.Collection.contains_map, Except.ok.injEq, decide_eq_false_iff_not] at free
    simp only [read, members, stands, Template.Collection.addIfAbsent_map, free, ↓reduceIte,
      List.isEmpty_cons, Bool.false_eq_true, Progress.ofExcept_mapError_ok]
    exact ⟨rfl, .inr ⟨trivial, es, _, rfl, rfl⟩⟩

/-- A role that is taken has a free name and principals that can be read, and it can be added if
there are any. -/
theorem free_of_addRole {request : RoleRequest} (taken : (p.addRole request).fault? = none) :
    p.resources.contains (.text (Identifier.roleResourceName request.role.display)) = .ok false ∧
      ∃ principals, request.principals = .ok principals ∧ (principals ≠ [] →
        (∃ ids, request.functions = .ok ids) ∧
          ∃ es : Entries Value, p.resources = ⟨.map es⟩) := by
  unfold addRole at taken
  obtain ⟨used, contained, taken⟩ := Progress.exists_ok_of_ofExcept taken
  cases used with
  | true => cases taken
  | false =>
    obtain ⟨principals, read, taken⟩ := Progress.exists_ok_of_ofExcept taken
    refine ⟨eq_ok_of_mapError contained, principals, eq_ok_of_mapError read, fun some => ?_⟩
    rw [if_neg (by simpa using some)] at taken
    obtain ⟨functions, members, taken⟩ := Progress.exists_ok_of_ofExcept taken
    obtain ⟨after, done, -⟩ := Progress.exists_ok_of_ofExcept taken
    refine ⟨⟨functions, eq_ok_of_mapError members⟩, ?_⟩
    have added := eq_ok_of_mapError done
    rw [Template.Collection.addIfAbsent, eq_ok_of_mapError contained] at added
    simp only [bind, Except.bind, Bool.false_eq_true, ↓reduceIte] at added
    split at added
    · cases added
    · rename_i grown assigned
      exact Template.Collection.assign_eq_map assigned

theorem fits_of_take (taken : (p.take toHost (g.roleStep directive)).fault? = none) :
    Fits g p.resources directive := by
  rcases ResolvedGroup.roleStep_cases g directive with asked | ⟨fault, refused⟩
  · rw [asked] at taken
    obtain ⟨free, principals, read, room⟩ := free_of_addRole taken
    have sound := ResolvedGroup.sound_of_roleStep asked read
    refine ⟨sound, free, fun lists => room ?_⟩
    obtain ⟨first, others, same⟩ := ResolvedGroup.rolePrincipals_of_lists sound lists
    obtain rfl : first :: others = principals := Except.ok.inj (same.symm.trans read)
    exact List.cons_ne_nil first others
  · rw [refused] at taken
    cases taken

/-- What a directive that is taken changes about which names are taken. -/
theorem contains_of_fits (fits : Fits g p.resources directive) (name : String) :
    (p.take toHost (g.roleStep directive)).reached.resources.contains (.text name) =
      (p.resources.contains (.text name)).map (· || takesName directive name) := by
  rcases (take_of_fits toHost fits).2 with
    ⟨none, same⟩ | ⟨lists, es, resource, stands, grown⟩
  · simp only [same, takesName, none, Bool.false_and, Bool.or_false]
    cases p.resources.contains (.text name) <;> rfl
  · rw [grown, Template.Collection.contains_append, stands, takesName, lists, Bool.true_and]

/-- What fits before a directive is taken fits after it, unless it has the name that the directive
takes. -/
theorem fits_take_iff (fits : Fits g p.resources directive) (other : Value) :
    Fits g (p.take toHost (g.roleStep directive)).reached.resources other ↔
      Fits g p.resources other ∧ takesName directive (statedName other) = false := by
  have mapping : (∃ es : Entries Value,
      (p.take toHost (g.roleStep directive)).reached.resources = ⟨.map es⟩) ↔
        ∃ es : Entries Value, p.resources = ⟨.map es⟩ := by
    rcases (take_of_fits toHost fits).2 with
      ⟨-, same⟩ | ⟨-, es, resource, stands, grown⟩
    · rw [same]
    · exact ⟨fun _ => ⟨es, stands⟩, fun _ => ⟨_, grown⟩⟩
  have free : (p.take toHost (g.roleStep directive)).reached.resources.contains
      (.text (statedName other)) = .ok false ↔
        p.resources.contains (.text (statedName other)) = .ok false ∧
          takesName directive (statedName other) = false := by
    rw [contains_of_fits fits]
    cases p.resources.contains (.text (statedName other)) with
    | error misuse => simp [Except.map]
    | ok taken => simp [Except.map]
  constructor
  · rintro ⟨sound, unused, room⟩
    obtain ⟨before, apart⟩ := free.mp unused
    exact ⟨⟨sound, before, fun lists => ⟨(room lists).1, mapping.mp (room lists).2⟩⟩, apart⟩
  · rintro ⟨⟨sound, unused, room⟩, apart⟩
    exact ⟨sound, free.mpr ⟨unused, apart⟩,
      fun lists => ⟨(room lists).1, mapping.mpr (room lists).2⟩⟩

end Pass

section Walk

variable {toHost : Bool} {g : ResolvedGroup}

/-- Which names are taken when directives have been: those from before and those that the directives
take. -/
theorem contains_walk {directives : List Value} {p : Pass}
    (taken : (Progress.walk (Pass.take toHost) p (directives.map g.roleStep)).fault? = none)
    (name : String) :
    (Progress.walk (Pass.take toHost) p (directives.map g.roleStep)).reached.resources.contains
        (.text name) =
      (p.resources.contains (.text name)).map (· || directives.any (takesName · name)) := by
  induction directives generalizing p with
  | nil =>
    simp only [List.map_nil, Progress.walk_nil, Progress.done, List.any_nil, Bool.or_false]
    cases p.resources.contains (.text name) <;> rfl
  | cons directive rest ih =>
    rw [List.map_cons, Progress.walk_cons] at taken ⊢
    obtain ⟨here, later⟩ := (Progress.andThen_fault?_eq_none_iff _ _).mp taken
    rw [Progress.andThen_of_ok _ here, ih later, Pass.contains_of_fits (Pass.fits_of_take here)]
    cases p.resources.contains (.text name) <;> simp [Except.map, Bool.or_assoc]

/-- Directives are taken one after another when each fits and none has a name that an earlier one
takes. -/
theorem walk_roleSteps_iff (directives : List Value) (p : Pass) :
    (Progress.walk (Pass.take toHost) p (directives.map g.roleStep)).fault? = none ↔
      (∀ directive ∈ directives, Fits g p.resources directive) ∧
        directives.Pairwise fun earlier later => takesName earlier (statedName later) = false := by
  -- Taking the first directive changes what fits among the rest only through the name that it takes.
  induction directives generalizing p with
  | nil => simp [Progress.done]
  | cons directive rest ih =>
    rw [List.map_cons, Progress.walk_cons, Progress.andThen_fault?_eq_none_iff, List.forall_mem_cons,
      List.pairwise_cons]
    constructor
    · rintro ⟨here, later⟩
      have fits := Pass.fits_of_take here
      obtain ⟨each, apart⟩ := (ih _).mp later
      refine ⟨⟨fits, fun other among => ?_⟩, fun other among => ?_, apart⟩
      · exact ((Pass.fits_take_iff fits other).mp (each other among)).1
      · exact ((Pass.fits_take_iff fits other).mp (each other among)).2
    · rintro ⟨⟨fits, each⟩, first, apart⟩
      refine ⟨(Pass.take_of_fits toHost fits).1, (ih _).mpr ⟨fun other among => ?_, apart⟩⟩
      exact (Pass.fits_take_iff fits other).mpr ⟨each other among, first other among⟩

/-- A directive that fits and is refused all the same has a name that an earlier one takes. -/
theorem exists_taker {before : List Value} {directive : Value} {p : Pass}
    (each : ∀ other ∈ before ++ [directive], Fits g p.resources other)
    (taken : (Progress.walk (Pass.take toHost) p (before.map g.roleStep)).fault? = none)
    (refused : (Progress.walk (Pass.take toHost) p
      ((before ++ [directive]).map g.roleStep)).fault? ≠ none) :
    ∃ earlier ∈ before, takesName earlier (statedName directive) = true := by
  by_contra apart
  simp only [not_exists, not_and, Bool.not_eq_true] at apart
  apply refused
  rw [walk_roleSteps_iff, List.pairwise_append]
  refine ⟨each, ((walk_roleSteps_iff before p).mp taken).2, List.pairwise_singleton _ _, ?_⟩
  intro earlier among later member
  rw [List.mem_singleton.mp member]
  exact apart earlier among

/-- Directives each of which fits are stopped only for a name that an earlier one takes. -/
theorem duplicate_of_stopped {directives : List Value} {p : Pass}
    (each : ∀ directive ∈ directives, Fits g p.resources directive)
    (stopped : (Progress.walk (Pass.take toHost) p (directives.map g.roleStep)).fault? ≠ none) :
    ∃ before directive after, directives = before ++ directive :: after ∧
      (∃ earlier ∈ before, takesName earlier (statedName directive) = true) ∧
      (Progress.walk (Pass.take toHost) p (directives.map g.roleStep)).fault? =
        some (.config (.duplicateRole g.name (directive.member "name"))) := by
  obtain ⟨steps, step, others, split, taken, same⟩ := Progress.walk_stopped stopped
  obtain ⟨before, rest, rfl, rfl, later⟩ := List.map_eq_append_iff.mp split
  obtain ⟨directive, after, rfl, rfl, -⟩ := List.map_eq_cons_iff.mp later
  have fits := each directive (by simp)
  have refused : (Progress.walk (Pass.take toHost) p
      ((before ++ [directive]).map g.roleStep)).fault? ≠ none := by
    rw [List.map_append, Progress.walk_append, Progress.andThen_of_ok _ taken, List.map_singleton,
      ne_eq, Progress.walk_cons, Progress.andThen_fault?_eq_none_iff, ← same]
    exact fun all => stopped all.1
  have among (other : Value) (member : other ∈ before ++ [directive]) :
      other ∈ before ++ directive :: after := by
    rw [List.append_cons]
    exact List.mem_append_left after member
  obtain ⟨earlier, listed, takes⟩ := exists_taker (fun other member => each other (among other member))
    taken refused
  refine ⟨before, directive, after, rfl, ⟨earlier, listed, takes⟩, ?_⟩
  have given : before.any (takesName · (statedName directive)) = true :=
    List.any_eq_true.mpr ⟨earlier, listed, takes⟩
  have used := contains_walk taken (statedName directive)
  rw [fits.free, given] at used
  rw [same, ResolvedGroup.roleStep_of_sound fits.sound]
  simp only [statedName] at used
  simp only [Pass.take, Pass.addRole, used]
  rfl

end Walk

/-- No directive has a name that an earlier one takes when the roles have different names and the
directives without principals stand in order. -/
theorem apart_iff (directives : List Value) :
    (directives.Pairwise fun earlier later => takesName earlier (statedName later) = false) ↔
      (directives.Pairwise fun earlier later => listsPrincipals earlier = true →
        listsPrincipals later = true → statedName earlier ≠ statedName later) ∧
      Orderly directives := by
  rw [Orderly, ← List.pairwise_and_iff]
  apply List.Pairwise.iff
  intro earlier later
  cases listsPrincipals later <;> simp [takesName]

/-- Directives in another order are taken as well, as long as those without principals stand in order
in both orders or in neither; else one of these is stopped for its name. -/
theorem walk_reordered {toHost : Bool} {g : ResolvedGroup} {directives reordered : List Value}
    (shuffled : directives.Perm reordered) (p : Pass) :
    let original := Progress.walk (Pass.take toHost) p (directives.map g.roleStep)
    let other := Progress.walk (Pass.take toHost) p (reordered.map g.roleStep)
    ((Orderly directives ↔ Orderly reordered) → (original.fault? = none ↔ other.fault? = none)) ∧
    (original.fault? = none → ¬ Orderly reordered →
      ∃ directive ∈ reordered, listsPrincipals directive = false ∧
        other.fault? = some (.config (.duplicateRole g.name (directive.member "name")))) := by
  intro original other
  have each : (∀ directive ∈ directives, Fits g p.resources directive) ↔
      ∀ directive ∈ reordered, Fits g p.resources directive :=
    ⟨fun all directive member => all directive (shuffled.mem_iff.mpr member),
      fun all directive member => all directive (shuffled.mem_iff.mp member)⟩
  have names : (directives.Pairwise fun earlier later => listsPrincipals earlier = true →
      listsPrincipals later = true → statedName earlier ≠ statedName later) ↔
      reordered.Pairwise fun earlier later => listsPrincipals earlier = true →
        listsPrincipals later = true → statedName earlier ≠ statedName later :=
    shuffled.pairwise_iff fun apart first second => (apart second first).symm
  constructor
  · intro order
    rw [walk_roleSteps_iff, walk_roleSteps_iff, apart_iff, apart_iff, each, names, order]
  · intro succeeded disorder
    obtain ⟨fits, apart⟩ := (walk_roleSteps_iff _ p).mp succeeded
    have different := names.mp ((apart_iff _).mp apart).1
    have stopped : other.fault? ≠ none := by
      rw [ne_eq, walk_roleSteps_iff, apart_iff]
      exact fun all => disorder all.2.2
    obtain ⟨before, directive, after, listed, ⟨earlier, among, takes⟩, fault⟩ :=
      duplicate_of_stopped (each.mp fits) stopped
    refine ⟨directive, by simp [listed], ?_, fault⟩
    -- Two directives with principals have different names, so the later of the two has none.
    by_contra lists
    rw [Bool.not_eq_false] at lists
    rw [takesName, Bool.and_eq_true, beq_iff_eq] at takes
    rw [listed, List.pairwise_append] at different
    exact different.2.2 earlier among directive List.mem_cons_self takes.1 lists takes.2

theorem emit_of_used (toHost : Bool) {g : ResolvedGroup} (used : g.isUsed = true)
    (c : Template.Collection) :
    emit toHost [g] c =
      (Progress.walk (Pass.take toHost) (Pass.start c) g.policySteps).andThen fun p =>
        Progress.walk (Pass.take toHost) p (g.role.oneOrMany.map g.roleStep) := by
  simp only [emit, plan, List.flatMap_cons, List.flatMap_nil, List.append_nil, ResolvedGroup.steps,
    used, ↓reduceIte, ResolvedGroup.roleSteps, Progress.walk_append]

/-- Declaring the directives of a used group in another order does not change whether a pass over
the group succeeds, as long as directives without principals stand in order in both declarations or
in neither. A pass that succeeds with one declaration and finds such a directive out of order in the
other is stopped there for the name of such a directive. -/
theorem emit_reordered (toHost : Bool) (g : ResolvedGroup) (c : Template.Collection) (role : Value)
    (used : g.isUsed = true) (shuffled : g.role.oneOrMany.Perm role.oneOrMany) :
    ((Orderly g.role.oneOrMany ↔ Orderly role.oneOrMany) →
      ((emit toHost [g] c).fault? = none ↔ (emit toHost [{ g with role }] c).fault? = none)) ∧
    ((emit toHost [g] c).fault? = none → ¬ Orderly role.oneOrMany →
      ∃ directive ∈ role.oneOrMany, listsPrincipals directive = false ∧
        (emit toHost [{ g with role }] c).fault? =
          some (.config (.duplicateRole g.name (directive.member "name")))) := by
  have original := emit_of_used toHost used c
  have reordered : emit toHost [{ g with role }] c =
      (Progress.walk (Pass.take toHost) (Pass.start c) g.policySteps).andThen fun p =>
        Progress.walk (Pass.take toHost) p (role.oneOrMany.map g.roleStep) :=
    emit_of_used toHost (g := { g with role }) used c
  rw [original, reordered]
  by_cases policy : (Progress.walk (Pass.take toHost) (Pass.start c) g.policySteps).fault? = none
  · rw [Progress.andThen_of_ok _ policy, Progress.andThen_of_ok _ policy]
    exact walk_reordered shuffled _
  · rw [Progress.andThen_of_stopped _ policy, Progress.andThen_of_stopped _ policy]
    exact ⟨fun _ => Iff.rfl, fun succeeded => absurd succeeded policy⟩

/-- A directive that lists no one, one for a role of the same name, and one for another role. -/
def rotaDirectives : List Value :=
  [.object [("name", .text "ops"), ("principals", .list [])],
    .object [("name", .text "ops"), ("principals", .text "111111111111")],
    .object [("name", .text "audit"), ("principals", .list [.int 222222222222])]]

def rotaGroup : ResolvedGroup :=
  ⟨.text "rota", .ok [.text "F"], .object [("principals", .int 333333333333)], .list rotaDirectives⟩

/-- Moving the other role to the front keeps the order of the rest; turning the list around does not. -/
theorem emit_reordered_rota :
    rotaGroup.isUsed = true ∧
      rotaDirectives.Perm (rotaDirectives.drop 2 ++ rotaDirectives.take 2) ∧
      rotaDirectives.Perm rotaDirectives.reverse ∧
      (emit true [rotaGroup.withDirectives (rotaDirectives.drop 2 ++ rotaDirectives.take 2)]
        Template.Collection.empty).fault? = none ∧
      ∃ directive ∈ rotaDirectives, listsPrincipals directive = false ∧
        (emit true [rotaGroup.withDirectives rotaDirectives.reverse] Template.Collection.empty).fault? =
          some (.config (.duplicateRole (.text "rota") (directive.member "name"))) := by
  have used : rotaGroup.isUsed = true := rfl
  have succeeded : (emit true [rotaGroup] Template.Collection.empty).fault? = none := rfl
  have moved : (rotaDirectives.take 2 ++ rotaDirectives.drop 2).Perm
      (rotaDirectives.drop 2 ++ rotaDirectives.take 2) := List.perm_append_comm
  rw [List.take_append_drop] at moved
  have turned := (List.reverse_perm rotaDirectives).symm
  obtain ⟨alike, -⟩ := emit_reordered true rotaGroup Template.Collection.empty
    (.list (rotaDirectives.drop 2 ++ rotaDirectives.take 2)) used moved
  obtain ⟨-, refused⟩ := emit_reordered true rotaGroup Template.Collection.empty
    (.list rotaDirectives.reverse) used turned
  refine ⟨used, moved, turned, (alike ?_).mp succeeded, ?_⟩
  · exact iff_of_true (by decide) (by decide)
  · obtain ⟨directive, listed, none, fault⟩ := refused succeeded (by decide)
    exact ⟨directive, List.mem_reverse.mp listed, none, fault⟩

/-- The same directives are taken in one order and refused in the other. -/
theorem emit_depends_on_order :
    rotaGroup.isUsed = true ∧ rotaDirectives.Perm rotaDirectives.reverse ∧
      ¬ ((emit true [rotaGroup] Template.Collection.empty).fault? = none ↔
        (emit true [rotaGroup.withDirectives rotaDirectives.reverse]
          Template.Collection.empty).fault? = none) := by
  refine ⟨rfl, (List.reverse_perm rotaDirectives).symm, fun alike => ?_⟩
  have succeeded : (emit true [rotaGroup] Template.Collection.empty).fault? = none := rfl
  have refused : (emit true [rotaGroup.withDirectives rotaDirectives.reverse]
      Template.Collection.empty).fault? =
        some (.config (.duplicateRole (.text "rota") (.text "ops"))) := rfl
  rw [alike.mp succeeded] at refused
  cases refused

end AccessGroups

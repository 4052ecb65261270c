import AccessGroups.Proofs.Group.Build
import AccessGroups.Proofs.Group.References
import AccessGroups.Proofs.Group.Unused

/-!
Groups that no function names. Such a group is not looked at: whatever it declares, and whether it is
declared at all, a build comes to the same end with the same resources. All that is left of it is a line to
the host, one for each such group in order, up to the group at which the build is stopped.
-/

set_option autoImplicit false

namespace AccessGroups

/-- Builds that come to the same end: with the same fault, or with none, and with the same resources. -/
structure Build.SameEnd (first second : Progress Build Fault) : Prop where
  fault : first.fault? = second.fault?
  resources : first.reached.resources = second.reached.resources

theorem Build.SameEnd.symm {first second : Progress Build Fault} (same : SameEnd first second) :
    SameEnd second first :=
  ⟨same.fault.symm, same.resources.symm⟩

theorem Build.SameEnd.trans {first second third : Progress Build Fault} (same : SameEnd first second)
    (other : SameEnd second third) : SameEnd first third :=
  ⟨same.fault.trans other.fault, same.resources.trans other.resources⟩

theorem build_of_fault (scheme : Identifier.IdScheme) (toHost : Bool)
    {groups functions : Entries Value} (c : Template.Collection) {fault : Fault}
    (failed : (resolve scheme (.map groups) (.map functions)).fault? = some fault) :
    build scheme toHost (.map groups) (.map functions) c =
      .stop ⟨c, (resolve scheme (.map groups) (.map functions)).reached.events, []⟩ fault := by
  unfold build
  simp only [failed]

theorem build_notices_of_resolved (scheme : Identifier.IdScheme) (toHost : Bool)
    {groups functions : Entries Value} (c : Template.Collection) (distinct : Entries.Distinct groups)
    (resolved : (resolve scheme (.map groups) (.map functions)).fault? = none) :
    (build scheme toHost (.map groups) (.map functions) c).reached.notices =
      (emit toHost ((resolvedGroups scheme groups functions).map Prod.snd) c).reached.notices := by
  have same := (resolve_spec scheme groups functions distinct).2 resolved
  unfold build
  simp only [resolved, same]

/-- Some function names the group; one that asks for no group, be it by an empty text, names none. -/
def isNamed (functions : Entries Value) (group : Value) : Bool :=
  functions.any fun function => (namedGroups function.2).any (Value.same group ·)

theorem same_of_not_named {functions : Entries Value} {group : Value}
    (unnamed : isNamed functions group = false) {function : Value × Value}
    (member : function ∈ functions) {name : Value} (named : name ∈ namedGroups function.2) :
    Value.same group name = false := by
  rw [isNamed, List.any_eq_false] at unnamed
  have apart := unnamed function member
  rw [Bool.not_eq_true, List.any_eq_false] at apart
  simpa using apart name named

theorem memberIds_of_not_named (scheme : Identifier.IdScheme) {functions : Entries Value}
    {group : Value} (unnamed : isNamed functions group = false) :
    memberIds scheme functions group = [] := by
  rw [List.eq_nil_iff_forall_not_mem]
  intro id listed
  obtain ⟨function, member, -, name, named, same⟩ :=
    (mem_memberIds_iff scheme functions group id).mp listed
  rw [same_of_not_named unnamed member named] at same
  cases same

/-- A reference does not depend on a group that it does not name. -/
theorem Roster.joinFault?_without {front back : List Value} {group name : Value}
    (apart : Value.same group name = false) (function : Value) :
    joinFault? (front ++ group :: back) function name = joinFault? (front ++ back) function name := by
  simp only [joinFault?, List.any_append, List.any_cons, apart, Bool.false_or]

theorem findSome?_congr {α β : Type} {f g : α → Option β} {xs : List α} (same : ∀ x ∈ xs, f x = g x) :
    xs.findSome? f = xs.findSome? g := by
  rw [← Function.id_comp f, ← Function.id_comp g, ← List.findSome?_map, ← List.findSome?_map,
    List.map_congr_left same]

theorem Roster.enrolFault?_without (scheme : Identifier.IdScheme) {functions : Entries Value}
    {front back : List Value} {group : Value} (unnamed : isNamed functions group = false)
    {function : Value × Value} (member : function ∈ functions) :
    enrolFault? scheme (front ++ group :: back) function =
      enrolFault? scheme (front ++ back) function := by
  unfold enrolFault?
  cases read : requested function.2 with
  | error misuse => rfl
  | ok wanted =>
    by_cases asks : wanted.truthy = true
    · have listed : wanted.oneOrMany = namedGroups function.2 := by
        rw [eq_member_of_requested read] at asks ⊢
        rw [namedGroups, if_pos asks]
      have looked : wanted.oneOrMany.findSome? (joinFault? (front ++ group :: back) function.1) =
          wanted.oneOrMany.findSome? (joinFault? (front ++ back) function.1) := by
        apply findSome?_congr
        intro name named
        rw [listed] at named
        exact joinFault?_without (same_of_not_named unnamed member named) function.1
      simp only [looked]
    · simp only [asks, Bool.not_false, ↓reduceIte]

section Inert

variable (scheme : Identifier.IdScheme) {functions front back : Entries Value}
  {name declaration : Value}
  (declared : declaration.truthy = false ∨ ∃ es, declaration = .map es)
  (unnamed : isNamed functions name = false)

include declared unnamed

/-- The references are resolved, or are not for the same reason, also without a group that no function
names. -/
theorem resolve_fault?_without (distinct : Entries.Distinct (front ++ (name, declaration) :: back)) :
    (resolve scheme (.map (front ++ (name, declaration) :: back)) (.map functions)).fault? =
      (resolve scheme (.map (front ++ back)) (.map functions)).fault? := by
  have keys : Entries.keys (front ++ (name, declaration) :: back) =
      Entries.keys front ++ name :: Entries.keys back := by simp [Entries.keys]
  have fewer : Entries.keys (front ++ back) = Entries.keys front ++ Entries.keys back := by
    simp [Entries.keys]
  have enrolled : functions.findSome?
        (Roster.enrolFault? scheme (Entries.keys front ++ name :: Entries.keys back)) =
      functions.findSome? (Roster.enrolFault? scheme (Entries.keys front ++ Entries.keys back)) :=
    findSome?_congr fun function member => Roster.enrolFault?_without scheme unnamed member
  rw [resolve_fault? scheme functions distinct, resolve_fault? scheme functions distinct.without, keys,
    fewer, enrolled, List.findSome?_append, List.findSome?_append, List.findSome?_cons,
    Roster.declareFault?_of_declaration declared]

omit declared in
/-- The groups that are used are the same ones without a group that no function names. -/
theorem filter_isUsed_without (front back : Entries Value) (declaration : Value) :
    ((resolvedGroups scheme (front ++ (name, declaration) :: back) functions).map Prod.snd).filter
        ResolvedGroup.isUsed =
      ((resolvedGroups scheme (front ++ back) functions).map Prod.snd).filter ResolvedGroup.isUsed := by
  have unused : ((ResolvedGroup.declared name declaration).enlist
      (memberIds scheme functions name)).isUsed = false := by
    rw [memberIds_of_not_named scheme unnamed]
    rfl
  simp only [resolvedGroups, List.map_append, List.map_cons, List.filter_append]
  rw [List.filter_cons_of_neg (by rw [unused]; exact Bool.false_ne_true)]

theorem build_without (toHost : Bool) (c : Template.Collection)
    (distinct : Entries.Distinct (front ++ (name, declaration) :: back)) :
    Build.SameEnd
      (build scheme toHost (.map (front ++ (name, declaration) :: back)) (.map functions) c)
      (build scheme toHost (.map (front ++ back)) (.map functions) c) := by
  have same := resolve_fault?_without scheme declared unnamed distinct
  cases outcome : (resolve scheme (.map (front ++ back)) (.map functions)).fault? with
  | none =>
    rw [outcome] at same
    obtain ⟨resources, fault⟩ := build_of_resolved scheme toHost c distinct same
    obtain ⟨resources', fault'⟩ := build_of_resolved scheme toHost c distinct.without outcome
    have emitted := emit_congr_used toHost c
      (filter_isUsed_without scheme unnamed front back declaration)
    exact ⟨fault.trans (emitted.fault.trans fault'.symm),
      resources.trans (emitted.reached.resources.trans resources'.symm)⟩
  | some fault =>
    rw [outcome] at same
    rw [build_of_fault scheme toHost c same, build_of_fault scheme toHost c outcome]
    exact ⟨rfl, rfl⟩

end Inert

/-- One line for each group that no function names, in order. -/
def unnamedNotices (functions groups : Entries Value) : List String :=
  (groups.filter fun group => !isNamed functions group.1).map (unusedNotice ·.1)

/-- Where every function that asks for a group has a logical id, a group is used just when some function
names it. -/
theorem isUsed_resolved {scheme : Identifier.IdScheme} {functions : Entries Value}
    (ids : ∀ function ∈ functions, Roster.asks function = true → ∃ id, scheme function.1 = .ok id)
    (name declaration : Value) :
    ((ResolvedGroup.declared name declaration).enlist (memberIds scheme functions name)).isUsed =
      isNamed functions name := by
  cases named : isNamed functions name with
  | false =>
    rw [memberIds_of_not_named scheme named]
    rfl
  | true =>
    simp only [isNamed, List.any_eq_true] at named
    obtain ⟨function, member, wanted, listed, same⟩ := named
    obtain ⟨id, given⟩ := ids function member (truthy_of_mem_namedGroups listed)
    have joined : id ∈ memberIds scheme functions name :=
      (mem_memberIds_iff scheme functions name id).mpr ⟨function, member, given, wanted, listed, same⟩
    obtain ⟨first, others, list⟩ := List.exists_cons_of_ne_nil (List.ne_nil_of_mem joined)
    rw [list]
    rfl

theorem unusedNotices_resolvedGroups {scheme : Identifier.IdScheme} {functions : Entries Value}
    (ids : ∀ function ∈ functions, Roster.asks function = true → ∃ id, scheme function.1 = .ok id)
    (groups : Entries Value) :
    unusedNotices ((resolvedGroups scheme groups functions).map Prod.snd) =
      unnamedNotices functions groups := by
  simp only [unusedNotices, unnamedNotices, resolvedGroups, List.map_map, List.filter_map]
  congr 1
  apply List.filter_congr
  intro group _
  exact congrArg _ (isUsed_resolved ids group.1 group.2)

theorem ids_of_resolved {scheme : Identifier.IdScheme} {groups functions : Entries Value}
    (distinct : Entries.Distinct groups)
    (resolved : (resolve scheme (.map groups) (.map functions)).fault? = none) :
    ∀ function ∈ functions, Roster.asks function = true → ∃ id, scheme function.1 = .ok id :=
  fun function member asking =>
    ((((resolve_spec scheme groups functions distinct).1.mp resolved).2 function member).2 asking).1

/-- The resolved groups before one of them are those of the groups declared before it. -/
theorem split_resolvedGroups {scheme : Identifier.IdScheme} {groups functions : Entries Value}
    {earlier later : List ResolvedGroup} {g : ResolvedGroup}
    (split : (resolvedGroups scheme groups functions).map Prod.snd = earlier ++ g :: later) :
    ∃ front group back, groups = front ++ group :: back ∧
      earlier = (resolvedGroups scheme front functions).map Prod.snd ∧
      g = (ResolvedGroup.declared group.1 group.2).enlist (memberIds scheme functions group.1) := by
  rw [resolvedGroups, List.map_map] at split
  obtain ⟨front, rest, rfl, rfl, others⟩ := List.map_eq_append_iff.mp split
  obtain ⟨group, back, rfl, rfl, -⟩ := List.map_eq_cons_iff.mp others
  exact ⟨front, group, back, rfl, by rw [resolvedGroups, List.map_map], rfl⟩

/-- A group that no function names is inert. A build comes to the same end with any mapping for its
declaration and without the group. The host is sent one line for each such group in order when the build
succeeds, and for those before the group at fault when it fails at a group; that group is named. A build
that fails over a reference sends none. -/
theorem build_inert (scheme : Identifier.IdScheme) (groups functions : Entries Value)
    (c : Template.Collection) (distinct : Entries.Distinct groups)
    (declarations : ∀ group ∈ groups, group.2.truthy = false ∨ ∃ es, group.2 = .map es) :
    (∀ toHost front name declaration back, groups = front ++ (name, declaration) :: back →
      isNamed functions name = false →
        (∀ es, Build.SameEnd
          (build scheme toHost (.map (front ++ (name, .map es) :: back)) (.map functions) c)
          (build scheme toHost (.map groups) (.map functions) c)) ∧
        Build.SameEnd (build scheme toHost (.map (front ++ back)) (.map functions) c)
          (build scheme toHost (.map groups) (.map functions) c)) ∧
    ((build scheme true (.map groups) (.map functions) c).fault? = none →
      (build scheme true (.map groups) (.map functions) c).reached.notices =
        unnamedNotices functions groups) ∧
    ∀ fault, (build scheme true (.map groups) (.map functions) c).fault? = some fault →
      (resolve scheme (.map groups) (.map functions)).fault? = some fault ∧
        (build scheme true (.map groups) (.map functions) c).reached.notices = [] ∨
      (resolve scheme (.map groups) (.map functions)).fault? = none ∧
        ∃ earlier group later, groups = earlier ++ group :: later ∧
          isNamed functions group.1 = true ∧
          (emit true ((resolvedGroups scheme earlier functions).map Prod.snd) c).fault? = none ∧
          (emit true ((resolvedGroups scheme (earlier ++ [group]) functions).map Prod.snd) c).fault? =
            some fault ∧
          (build scheme true (.map groups) (.map functions) c).reached.notices =
            unnamedNotices functions earlier := by
  refine ⟨?_, ?_, ?_⟩
  · rintro toHost front name declaration back rfl unnamed
    have given := declarations (name, declaration) (by simp)
    have removed := build_without scheme given unnamed toHost c distinct
    refine ⟨fun es => ?_, removed.symm⟩
    have replaced := build_without scheme (.inr ⟨es, rfl⟩) unnamed toHost c (distinct.replace (.map es))
    exact replaced.trans removed.symm
  · intro ok
    cases outcome : (resolve scheme (.map groups) (.map functions)).fault? with
    | some fault =>
      rw [build_of_fault scheme true c outcome] at ok
      cases ok
    | none =>
      rw [(build_of_resolved scheme true c distinct outcome).2] at ok
      rw [build_notices_of_resolved scheme true c distinct outcome, emit_notices ok,
        unusedNotices_resolvedGroups (ids_of_resolved distinct outcome)]
  · intro fault failed
    cases outcome : (resolve scheme (.map groups) (.map functions)).fault? with
    | some cause =>
      rw [build_of_fault scheme true c outcome] at failed ⊢
      exact .inl ⟨failed, rfl⟩
    | none =>
      have ids := ids_of_resolved distinct outcome
      rw [(build_of_resolved scheme true c distinct outcome).2] at failed
      obtain ⟨earlier, g, later, split, used, reached, stopped, notices⟩ := emit_stopped failed
      obtain ⟨front, group, back, rfl, rfl, rfl⟩ := split_resolvedGroups split
      refine .inr ⟨rfl, front, group, back, rfl, ?_, reached, ?_, ?_⟩
      · rw [← isUsed_resolved ids group.1 group.2, used]
      · simpa only [resolvedGroups, List.map_append, List.map_cons, List.map_nil] using stopped
      · rw [build_notices_of_resolved scheme true c distinct outcome, notices,
          unusedNotices_resolvedGroups ids]

/-- Groups that no function names, one of them with a role that has no name, around a group whose policy has
no principals. -/
def idleGroups : Entries Value :=
  [(.text "spare", .object [("role", .object [("principals", .bool true)])]),
    (.text "api", .object [("policy", .object [("principals", .int 111111111111)])]),
    (.text "idle", .null), (.text "bare", .object [("policy", .map [])]), (.text "late", .map [])]

def joiningFunctions : Entries Value :=
  [(.text "load", .object [("allowAccess", .list [.text "bare", .text "api"])])]

theorem build_inert_idle :
    Entries.Distinct idleGroups ∧
      (∀ group ∈ idleGroups, group.2.truthy = false ∨ ∃ es, group.2 = .map es) ∧
      isNamed joiningFunctions (.text "spare") = false ∧
      (build Identifier.defaultScheme true (.map idleGroups) (.map joiningFunctions) ⟨.map []⟩).fault? =
        some (.config (.policyWithoutPrincipals (.text "bare"))) ∧
      (∀ es, (build Identifier.defaultScheme true (.map ((.text "spare", .map es) :: idleGroups.tail))
        (.map joiningFunctions) ⟨.map []⟩).fault? =
          some (.config (.policyWithoutPrincipals (.text "bare")))) ∧
      (build Identifier.defaultScheme true (.map idleGroups) (.map joiningFunctions)
        ⟨.map []⟩).reached.notices =
          ["WARNING: Group \"spare\" is not used", "WARNING: Group \"idle\" is not used"] ∧
      ∃ earlier group later, idleGroups = earlier ++ group :: later ∧
        isNamed joiningFunctions group.1 = true ∧
        (build Identifier.defaultScheme true (.map idleGroups) (.map joiningFunctions)
          ⟨.map []⟩).reached.notices = unnamedNotices joiningFunctions earlier := by
  have distinct : Entries.Distinct idleGroups := by
    unfold Entries.Distinct
    decide
  have declarations : ∀ group ∈ idleGroups, group.2.truthy = false ∨ ∃ es, group.2 = .map es := by
    intro group member
    simp only [idleGroups, List.mem_cons, List.not_mem_nil, or_false] at member
    rcases member with rfl | rfl | rfl | rfl | rfl
    · exact .inr ⟨_, rfl⟩
    · exact .inr ⟨_, rfl⟩
    · exact .inl rfl
    · exact .inr ⟨_, rfl⟩
    · exact .inr ⟨_, rfl⟩
  have resolved : (resolve Identifier.defaultScheme (.map idleGroups) (.map joiningFunctions)).fault? =
      none := rfl
  have failed : (build Identifier.defaultScheme true (.map idleGroups) (.map joiningFunctions)
      ⟨.map []⟩).fault? = some (.config (.policyWithoutPrincipals (.text "bare"))) := rfl
  obtain ⟨inert, -, stopped⟩ :=
    build_inert Identifier.defaultScheme idleGroups joiningFunctions ⟨.map []⟩ distinct declarations
  refine ⟨distinct, declarations, rfl, failed, fun es => ?_, rfl, ?_⟩
  · rw [← failed]
    exact ((inert true [] _ _ _ rfl rfl).1 es).fault
  · rcases stopped _ failed with
      ⟨unresolved, -⟩ | ⟨-, earlier, group, later, split, named, -, -, notices⟩
    · rw [resolved] at unresolved
      cases unresolved
    · exact ⟨earlier, group, later, split, named, notices⟩

end AccessGroups

import AccessGroups.Proofs.Group.Resolution

/-!
References of functions to groups. The functions are gone through in order, and each refers to its groups in
the order in which it lists them; the first reference to a group that is not declared stops the run. Each
function that asks for a group is given a logical id once, before its references are looked up, and no other
function is.
-/

set_option autoImplicit false

namespace AccessGroups

namespace Roster

/-- Why a function cannot join a group when there are groups of the given names; none if it can. -/
def joinFault? (groups : List Value) (function name : Value) : Option Fault :=
  if !name.hashable then some (.misuse .operand)
  else if groups.any (Value.same · name) then none
  else some (.config (.unknownGroup function name))

/-- Why a function cannot be enrolled when there are groups of the given names; none if it can. -/
def enrolFault? (scheme : Identifier.IdScheme) (groups : List Value) (function : Value × Value) :
    Option Fault :=
  match requested function.2 with
  | .error misuse => some (.misuse misuse)
  | .ok wanted =>
    if !wanted.truthy then none
    else
      match scheme function.1 with
      | .error misuse => some (.misuse misuse)
      | .ok _ => wanted.oneOrMany.findSome? (joinFault? groups function.1)

/-- Why a group cannot be declared; none if it can. -/
def declareFault? (group : Value × Value) : Option Fault :=
  match ResolvedGroup.declare group.1 group.2 with
  | .error misuse => some (.misuse misuse)
  | .ok _ => none

/-- The groups of a roster have different names, which are the given ones. -/
def Names (groups : List Value) (r : Roster) : Prop :=
  Entries.Distinct r.groups ∧ Entries.keys r.groups = groups

theorem Names.of_enlisted {groups : List Value} {r t : Roster} {ids : Value → List Value}
    (names : r.Names groups) (same : t.groups = enlisted r.groups ids) : t.Names groups := by
  refine ⟨?_, ?_⟩
  · rw [same]
    exact distinct_enlisted names.1 ids
  · rw [same, keys_enlisted, names.2]

theorem join_fault? (function id : Value) (r : Roster) (name : Value) :
    (join function id r name).fault? = joinFault? (Entries.keys r.groups) function name := by
  unfold join joinFault?
  by_cases hashable : name.hashable = true
  · simp only [hashable, Bool.not_true, Bool.false_eq_true, ↓reduceIte]
    cases found : Entries.get? r.groups name with
    | none =>
      have missing : (Entries.keys r.groups).any (Value.same · name) = false := by
        rw [Entries.get?_eq_none_iff] at found
        simpa [Entries.keys] using found
      simp only [missing, Bool.false_eq_true, ↓reduceIte]
      rfl
    | some g =>
      have there : (Entries.keys r.groups).any (Value.same · name) = true := by
        obtain ⟨key, member, same⟩ := Entries.mem_of_get?_eq_some found
        exact List.any_eq_true.mpr ⟨key, List.mem_map.mpr ⟨_, member, rfl⟩, same⟩
      simp only [there, ↓reduceIte]
      rfl
  · simp [hashable, Progress.stop]

theorem walk_join_fault? (function id : Value) {groups : List Value} {r : Roster}
    (names : r.Names groups) (wanted : List Value) :
    (Progress.walk (join function id) r wanted).fault? =
      wanted.findSome? (joinFault? groups function) := by
  refine Progress.walk_findSome? (Names groups) ?_ ?_ names
  · intro s name names
    rw [join_fault?, names.2]
  · intro s name names ok
    exact names.of_enlisted ((join_spec function id s names.1 name).2 ok)

theorem enrol_fault? (scheme : Identifier.IdScheme) {groups : List Value} {r : Roster}
    (names : r.Names groups) (function : Value × Value) :
    (enrol scheme r function).fault? = enrolFault? scheme groups function := by
  unfold enrol enrolFault?
  cases requested function.2 with
  | error misuse => rfl
  | ok wanted =>
    simp only [Progress.ofExcept_mapError_ok]
    by_cases asks : wanted.truthy = true
    · simp only [asks, Bool.not_true, Bool.false_eq_true, ↓reduceIte]
      cases scheme function.1 with
      | error misuse => rfl
      | ok id =>
        exact walk_join_fault? function.1 id
          (show Names groups { r with asked := r.asked ++ [function.1] } from names) wanted.oneOrMany
    · simp [asks, Progress.done]

theorem walk_enrol_fault? (scheme : Identifier.IdScheme) {groups : List Value} {r : Roster}
    (names : r.Names groups) (functions : Entries Value) :
    (Progress.walk (enrol scheme) r functions).fault? =
      functions.findSome? (enrolFault? scheme groups) := by
  refine Progress.walk_findSome? (Names groups) ?_ ?_ names
  · intro s function names
    exact enrol_fault? scheme names function
  · intro s function names ok
    exact names.of_enlisted ((enrol_spec scheme s names.1 function).2 ok)

theorem walk_declare_fault? (groups : Entries Value) (r : Roster) :
    (Progress.walk declare r groups).fault? = groups.findSome? declareFault? := by
  refine Progress.walk_findSome? (fun _ => True) ?_ (fun _ _ _ _ => trivial) trivial
  intro s group _
  unfold declare declareFault?
  cases ResolvedGroup.declare group.1 group.2 <;> rfl

/-- A group can be declared by a mapping and by whatever is empty. -/
theorem declareFault?_of_declaration {group : Value × Value}
    (declaration : group.2.truthy = false ∨ ∃ es, group.2 = .map es) :
    declareFault? group = none := by
  unfold declareFault? ResolvedGroup.declare
  rcases declaration with empty | ⟨es, mapping⟩
  · simp [empty, pure, Except.pure]
  · rw [mapping]
    by_cases given : (Value.map es).truthy = true
    · simp only [given, ↓reduceIte]
      rfl
    · simp only [given, Bool.false_eq_true, ↓reduceIte]
      rfl

theorem declare_asked (r : Roster) (group : Value × Value) :
    (r.declare group).reached.asked = r.asked := by
  unfold declare
  cases ResolvedGroup.declare group.1 group.2 <;> rfl

theorem walk_declare_asked (groups : Entries Value) (r : Roster) :
    (Progress.walk declare r groups).reached.asked = r.asked := by
  refine @Progress.walk_keeps _ _ _ _ (fun t => t.asked = r.asked) groups r ?_ rfl
  intro t group _ kept
  rw [declare_asked, kept]

theorem names_of_declared {groups : Entries Value} (distinct : Entries.Distinct groups)
    (ok : (Progress.walk declare empty groups).fault? = none) :
    (Progress.walk declare empty groups).reached.Names (Entries.keys groups) := by
  have all := distinct.map fun e => ResolvedGroup.declared e.1 e.2
  have declared := walk_declare_groups groups empty all ok
  refine ⟨by rw [declared]; exact all, ?_⟩
  rw [declared, Entries.keys, Entries.keys, List.map_append, List.map_map]
  rfl

def asks (function : Value × Value) : Bool := (function.2.member "allowAccess").truthy

theorem asks_of_unread {function : Value × Value} {misuse : Misuse}
    (unread : requested function.2 = .error misuse) : asks function = false := by
  unfold requested at unread
  split at unread
  · unfold asks
    cases declaration : function.2 with
    | map es => simp [declaration, Value.field] at unread
    | _ => rfl
  · cases unread

theorem join_asked (function id : Value) (r : Roster) (name : Value) :
    (join function id r name).reached.asked = r.asked := by
  unfold join
  split
  · rfl
  · split <;> rfl

theorem walk_join_asked (function id : Value) (names : List Value) (r : Roster) :
    (Progress.walk (join function id) r names).reached.asked = r.asked := by
  refine @Progress.walk_keeps _ _ _ _ (fun t => t.asked = r.asked) names r ?_ rfl
  intro t name _ kept
  rw [join_asked, kept]

/-- The logical id of a function is asked for once if the function asks for a group, and otherwise not. -/
theorem enrol_asked (scheme : Identifier.IdScheme) (r : Roster) (function : Value × Value) :
    (enrol scheme r function).reached.asked =
      r.asked ++ ([function].filter asks).map Prod.fst := by
  unfold enrol
  cases read : requested function.2 with
  | error misuse => simp [Progress.stop, asks_of_unread read]
  | ok wanted =>
    have same : wanted.truthy = asks function := by rw [eq_member_of_requested read, asks]
    rw [Progress.ofExcept_mapError_ok, same]
    by_cases asking : asks function = true
    · simp only [asking, Bool.not_true, Bool.false_eq_true, ↓reduceIte, List.filter_cons_of_pos,
        List.filter_nil, List.map_cons, List.map_nil]
      cases scheme function.1 with
      | error misuse => rfl
      | ok id =>
        exact walk_join_asked function.1 id wanted.oneOrMany
          { r with asked := r.asked ++ [function.1] }
    · simp [asking, Progress.done]

theorem walk_enrol_asked (scheme : Identifier.IdScheme) (functions : Entries Value) (r : Roster)
    (ok : (Progress.walk (enrol scheme) r functions).fault? = none) :
    (Progress.walk (enrol scheme) r functions).reached.asked =
      r.asked ++ (functions.filter asks).map Prod.fst := by
  induction functions generalizing r with
  | nil => simp [Progress.done]
  | cons function rest ih =>
    rw [Progress.walk_cons, Progress.andThen_fault?_eq_none_iff] at ok
    rw [Progress.walk_cons, Progress.andThen_of_ok _ ok.1, ih _ ok.2, enrol_asked, List.append_assoc,
      ← List.map_append, ← List.filter_append, List.singleton_append]

/-- A run that is stopped is stopped at the first function that cannot be enrolled, after the logical ids of
the functions up to that one were asked for. -/
theorem walk_enrol_stopped (scheme : Identifier.IdScheme) {groups : List Value} {r : Roster}
    (names : r.Names groups) {functions : Entries Value} {fault : Fault}
    (failed : (Progress.walk (enrol scheme) r functions).fault? = some fault) :
    ∃ before function after, functions = before ++ function :: after ∧
      (∀ earlier ∈ before, enrolFault? scheme groups earlier = none) ∧
      enrolFault? scheme groups function = some fault ∧
      (Progress.walk (enrol scheme) r functions).reached.asked =
        r.asked ++ ((before ++ [function]).filter asks).map Prod.fst := by
  obtain ⟨before, function, after, split, taken, last⟩ :=
    Progress.walk_stopped (by rw [failed]; simp)
  have early := walk_enrol_fault? scheme names before
  rw [taken, eq_comm, List.findSome?_eq_none_iff] at early
  have standing := names.of_enlisted ((walk_enrol_spec scheme before r names.1).2 taken)
  refine ⟨before, function, after, split, early, ?_, ?_⟩
  · rw [← enrol_fault? scheme standing, ← last, failed]
  · rw [last, enrol_asked, walk_enrol_asked scheme before r taken, List.append_assoc,
      ← List.map_append, ← List.filter_append]

end Roster

/-- What resolving memberships fails with: the first group that cannot be declared, or else the first function
that cannot be enrolled among groups of the declared names. -/
theorem resolve_fault? (scheme : Identifier.IdScheme) {groups : Entries Value}
    (functions : Entries Value) (distinct : Entries.Distinct groups) :
    (resolve scheme (.map groups) (.map functions)).fault? =
      (groups.findSome? Roster.declareFault?).or
        (functions.findSome? (Roster.enrolFault? scheme (Entries.keys groups))) := by
  rw [resolve_map, ← Roster.walk_declare_fault? groups Roster.empty]
  cases declared : (Progress.walk Roster.declare Roster.empty groups).fault? with
  | none =>
    rw [Progress.andThen_of_ok _ declared, Option.none_or,
      Roster.walk_enrol_fault? scheme (Roster.names_of_declared distinct declared)]
  | some fault =>
    rw [Progress.andThen_of_stopped _ (by simp [declared]), declared, Option.some_or]

/-- A function's declaration is a mapping or empty, and it asks for nothing or names its groups by texts. -/
structure AsksByName (declaration : Value) : Prop where
  mapping : declaration.truthy = false ∨ ∃ es, declaration = .map es
  names : (declaration.member "allowAccess").truthy = false ∨
    (∃ name, declaration.member "allowAccess" = .text name) ∨
    ∃ names : List String, declaration.member "allowAccess" = .list (names.map .text) ∨
      declaration.member "allowAccess" = .tuple (names.map .text)

namespace AsksByName

variable {declaration : Value} (asking : AsksByName declaration)

include asking

theorem requested_eq : Roster.requested declaration = .ok (declaration.member "allowAccess") := by
  unfold Roster.requested
  by_cases given : declaration.truthy = true
  · rw [if_pos given]
    rcases asking.mapping with empty | ⟨es, rfl⟩
    · rw [empty] at given
      cases given
    · rfl
  · rw [if_neg given, Value.member_of_not_truthy (by simpa using given)]

theorem exists_text {name : Value} (member : name ∈ namedGroups declaration) :
    ∃ text, name = .text text := by
  have truthy := truthy_of_mem_namedGroups member
  rw [namedGroups, if_pos truthy] at member
  rcases asking.names with none | ⟨one, given⟩ | ⟨many, given | given⟩
  · rw [none] at truthy
    cases truthy
  · rw [given] at member
    exact ⟨one, List.mem_singleton.mp member⟩
  all_goals
    rw [given] at member
    obtain ⟨text, -, rfl⟩ := List.mem_map.mp member
    exact ⟨text, rfl⟩

end AsksByName

/-- Why a function that asks for groups cannot join all of those that it names: it has no logical id, or of
the groups that it names, in order, the first that is not declared. -/
inductive Unmet (scheme : Identifier.IdScheme) (groups : List Value) (function : Value × Value) :
    Fault → Prop
  | nameless {misuse : Misuse} (asking : Roster.asks function = true)
      (unnamed : scheme function.1 = .error misuse) : Unmet scheme groups function (.misuse misuse)
  | undeclared {id name : Value} {front back : List Value} (named : scheme function.1 = .ok id)
      (listed : namedGroups function.2 = front ++ name :: back)
      (declared : ∀ other ∈ front, other ∈ groups) (missing : name ∉ groups) :
      Unmet scheme groups function (.config (.unknownGroup function.1 name))

namespace Roster

theorem joinFault?_of_mem {groups : List Value} (function : Value) {name : String}
    (declared : .text name ∈ groups) : joinFault? groups function (.text name) = none := by
  have there : groups.any (Value.same · (.text name)) = true :=
    List.any_eq_true.mpr ⟨_, declared, (Value.same_text_iff _ _).mpr rfl⟩
  simp only [joinFault?, there, Value.hashable, Bool.not_true, Bool.false_eq_true, ↓reduceIte]

theorem joinFault?_of_not_mem {groups : List Value} (function : Value) {name : String}
    (missing : .text name ∉ groups) :
    joinFault? groups function (.text name) =
      some (.config (.unknownGroup function (.text name))) := by
  have absent : groups.any (Value.same · (.text name)) = false := by
    rw [List.any_eq_false]
    intro group member same
    rw [Value.same_text_iff] at same
    exact missing (same ▸ member)
  simp only [joinFault?, absent, Value.hashable, Bool.not_true, Bool.false_eq_true, ↓reduceIte]

variable (scheme : Identifier.IdScheme) (groups : List Value) {function : Value × Value}
  (asking : AsksByName function.2)

include asking

theorem joinFault?_eq_none_iff {name : Value} (listed : name ∈ namedGroups function.2) :
    joinFault? groups function.1 name = none ↔ name ∈ groups := by
  obtain ⟨text, rfl⟩ := asking.exists_text listed
  by_cases declared : .text text ∈ groups
  · simp [joinFault?_of_mem function.1 declared, declared]
  · simp [joinFault?_of_not_mem function.1 declared, declared]

/-- Of a function that names its groups by texts, only its logical id and the names matter. -/
theorem enrolFault?_eq :
    enrolFault? scheme groups function =
      if asks function then
        match scheme function.1 with
        | .error misuse => some (.misuse misuse)
        | .ok _ => (namedGroups function.2).findSome? (joinFault? groups function.1)
      else none := by
  unfold enrolFault? asks namedGroups
  rw [asking.requested_eq]
  by_cases given : (function.2.member "allowAccess").truthy = true
  · simp only [given, Bool.not_true, Bool.false_eq_true, ↓reduceIte]
  · simp [given]

theorem enrolFault?_eq_none_iff :
    enrolFault? scheme groups function = none ↔
      (asks function = true → ∃ id, scheme function.1 = .ok id) ∧
        ∀ name ∈ namedGroups function.2, name ∈ groups := by
  rw [enrolFault?_eq scheme groups asking]
  by_cases asked : asks function = true
  · rw [if_pos asked]
    cases scheme function.1 with
    | error misuse => simp [asked]
    | ok id =>
      simp only [List.findSome?_eq_none_iff, Except.ok.injEq, exists_eq', implies_true, true_and]
      exact forall₂_congr fun name listed => joinFault?_eq_none_iff groups asking listed
  · have nothing : namedGroups function.2 = [] := if_neg asked
    simp [asked, nothing]

theorem unmet_of_enrolFault? {fault : Fault}
    (failed : enrolFault? scheme groups function = some fault) :
    Unmet scheme groups function fault := by
  rw [enrolFault?_eq scheme groups asking] at failed
  split at failed
  · rename_i asked
    cases named : scheme function.1 with
    | error misuse =>
      rw [named] at failed
      cases failed
      exact .nameless asked named
    | ok id =>
      rw [named] at failed
      obtain ⟨front, name, back, listed, here, early⟩ := List.findSome?_eq_some_iff.mp failed
      have among : ∀ other ∈ front ++ name :: back, other ∈ namedGroups function.2 :=
        fun other member => listed ▸ member
      have missing : name ∉ groups := by
        rw [← joinFault?_eq_none_iff groups asking (among name (by simp)), here]
        simp
      obtain ⟨text, rfl⟩ := asking.exists_text (among name (by simp))
      rw [joinFault?_of_not_mem function.1 missing] at here
      cases here
      refine .undeclared named listed ?_ missing
      intro other member
      rw [← joinFault?_eq_none_iff groups asking (among other (List.mem_append_left _ member))]
      exact early other member
  · cases failed

end Roster

/-- Resolving the memberships of functions that name their groups by texts succeeds when all functions that
ask for a group have a logical id and every group that they name is declared. Then every declared group is
carried through in its place and lists, function by function, one copy of the function's logical id for every
time that the function names the group. Otherwise it fails at the first reference that cannot be met. Either
way, a logical id is asked for once for each function that asks for a group, in order, up to the one at which
the run ends, and for no other function. -/
theorem resolve_references (scheme : Identifier.IdScheme) (groups functions : Entries Value)
    (distinct : Entries.Distinct groups)
    (declarations : ∀ group ∈ groups, group.2.truthy = false ∨ ∃ es, group.2 = .map es)
    (asking : ∀ function ∈ functions, AsksByName function.2) :
    ((resolve scheme (.map groups) (.map functions)).fault? = none ↔
      (∀ function ∈ functions, Roster.asks function = true → ∃ id, scheme function.1 = .ok id) ∧
        ∀ function ∈ functions, ∀ name ∈ namedGroups function.2, name ∈ Entries.keys groups) ∧
    ((resolve scheme (.map groups) (.map functions)).fault? = none →
      (resolve scheme (.map groups) (.map functions)).reached.groups =
          groups.map (fun group => (group.1, ⟨group.1, .ok (memberIds scheme functions group.1),
            group.2.member "policy", group.2.member "role"⟩)) ∧
        (resolve scheme (.map groups) (.map functions)).reached.asked =
          (functions.filter Roster.asks).map Prod.fst) ∧
    ∀ fault, (resolve scheme (.map groups) (.map functions)).fault? = some fault →
      ∃ before function after, functions = before ++ function :: after ∧
        (∀ earlier ∈ before,
          (Roster.asks earlier = true → ∃ id, scheme earlier.1 = .ok id) ∧
            ∀ name ∈ namedGroups earlier.2, name ∈ Entries.keys groups) ∧
        Unmet scheme (Entries.keys groups) function fault ∧
        (resolve scheme (.map groups) (.map functions)).reached.asked =
          ((before ++ [function]).filter Roster.asks).map Prod.fst := by
  have declared : (Progress.walk Roster.declare Roster.empty groups).fault? = none := by
    rw [Roster.walk_declare_fault?, List.findSome?_eq_none_iff]
    exact fun group member => Roster.declareFault?_of_declaration (declarations group member)
  have names := Roster.names_of_declared distinct declared
  have walked : resolve scheme (.map groups) (.map functions) =
      Progress.walk (Roster.enrol scheme) (Progress.walk Roster.declare Roster.empty groups).reached
        functions := by
    rw [resolve_map, Progress.andThen_of_ok _ declared]
  have fault := Roster.walk_enrol_fault? scheme names functions
  rw [← walked] at fault
  refine ⟨?_, ?_, ?_⟩
  · rw [fault, List.findSome?_eq_none_iff, ← forall₂_and]
    exact forall₂_congr fun function member =>
      Roster.enrolFault?_eq_none_iff scheme _ (asking function member)
  · intro ok
    refine ⟨?_, ?_⟩
    · rw [(resolve_spec scheme groups functions distinct).2 ok]
      rfl
    · rw [walked] at ok ⊢
      rw [Roster.walk_enrol_asked scheme functions _ ok, Roster.walk_declare_asked]
      rfl
  · intro fault failed
    rw [walked] at failed ⊢
    obtain ⟨before, function, after, split, early, here, asked⟩ :=
      Roster.walk_enrol_stopped scheme names failed
    refine ⟨before, function, after, split, ?_, ?_, ?_⟩
    · intro earlier member
      rw [← Roster.enrolFault?_eq_none_iff scheme _ (asking earlier (by simp [split, member]))]
      exact early earlier member
    · exact Roster.unmet_of_enrolFault? scheme _ (asking function (by simp [split])) here
    · rw [asked, Roster.walk_declare_asked]
      rfl

/-- Two groups, one of them declared by nothing. -/
def referredGroups : Entries Value :=
  [(.text "api", .object [("policy", .object [("principals", .int 111111111111)])]),
    (.text "admin", .null)]

/-- Functions that name groups repeatedly, that ask for nothing, and one that names a group that there is
not. -/
def referringFunctions : Entries Value :=
  [(.text "load", .object [("allowAccess", .list [.text "api", .text "admin", .text "api"])]),
    (.text "idle", .null), (.text "keep", .object [("allowAccess", .text "")]),
    (.text "store", .object [("allowAccess", .tuple [.text "admin", .text "guests", .text "none"])]),
    (.text "late", .object [("allowAccess", .text "api")])]

theorem referringFunctions_askByName : ∀ function ∈ referringFunctions, AsksByName function.2 := by
  intro function member
  simp only [referringFunctions, List.mem_cons, List.not_mem_nil, or_false] at member
  rcases member with rfl | rfl | rfl | rfl | rfl
  · exact ⟨.inr ⟨_, rfl⟩, .inr (.inr ⟨["api", "admin", "api"], .inl rfl⟩)⟩
  · exact ⟨.inl rfl, .inl rfl⟩
  · exact ⟨.inr ⟨_, rfl⟩, .inl rfl⟩
  · exact ⟨.inr ⟨_, rfl⟩, .inr (.inr ⟨["admin", "guests", "none"], .inr rfl⟩)⟩
  · exact ⟨.inr ⟨_, rfl⟩, .inr (.inl ⟨"api", rfl⟩)⟩

theorem resolve_references_unmet :
    Entries.Distinct referredGroups ∧
      (∀ group ∈ referredGroups, group.2.truthy = false ∨ ∃ es, group.2 = .map es) ∧
      (∀ function ∈ referringFunctions, AsksByName function.2) ∧
      (resolve Identifier.defaultScheme (.map referredGroups) (.map referringFunctions)).fault? =
        some (.config (.unknownGroup (.text "store") (.text "guests"))) ∧
      ∃ before function after, referringFunctions = before ++ function :: after ∧
        Unmet Identifier.defaultScheme (Entries.keys referredGroups) function
          (.config (.unknownGroup (.text "store") (.text "guests"))) ∧
        (resolve Identifier.defaultScheme (.map referredGroups)
          (.map referringFunctions)).reached.asked =
          ((before ++ [function]).filter Roster.asks).map Prod.fst := by
  have distinct : Entries.Distinct referredGroups := by
    unfold Entries.Distinct
    decide
  have declarations : ∀ group ∈ referredGroups, group.2.truthy = false ∨ ∃ es, group.2 = .map es := by
    intro group member
    simp only [referredGroups, List.mem_cons, List.not_mem_nil, or_false] at member
    rcases member with rfl | rfl
    · exact .inr ⟨_, rfl⟩
    · exact .inl rfl
  have failed : (resolve Identifier.defaultScheme (.map referredGroups)
      (.map referringFunctions)).fault? =
      some (.config (.unknownGroup (.text "store") (.text "guests"))) := rfl
  obtain ⟨before, function, after, split, -, unmet, asked⟩ :=
    (resolve_references Identifier.defaultScheme referredGroups referringFunctions distinct declarations
      referringFunctions_askByName).2.2 _ failed
  exact ⟨distinct, declarations, referringFunctions_askByName, failed, before, function, after, split,
    unmet, asked⟩

/-- A declaration that asks for nothing by an empty text. -/
def emptyRequest : Value := .object [("allowAccess", .text "")]

/-- An empty text asks for nothing, also where a group has the empty name: the function is not listed for that
group, although the text stands for one occurrence of the name. -/
theorem resolve_skips_empty_request :
    (resolve Identifier.defaultScheme (.map [(.text "", .map [])])
        (.map [(.text "f", emptyRequest)])).fault? = none ∧
      ∃ entry ∈ (resolve Identifier.defaultScheme (.map [(.text "", .map [])])
          (.map [(.text "f", emptyRequest)])).reached.groups,
        entry.2.functions = .ok [] ∧
        ((emptyRequest.member "allowAccess").oneOrMany.filter (Value.same entry.1 ·)).map
          (fun _ => Value.text (Identifier.logicalId "f")) ≠ [] := by
  refine ⟨rfl, (.text "", ⟨.text "", .ok [], .null, .null⟩), List.mem_singleton.mpr rfl, rfl, ?_⟩
  simp [emptyRequest, Value.oneOrMany]

end AccessGroups

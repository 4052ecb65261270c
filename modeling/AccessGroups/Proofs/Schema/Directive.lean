import AccessGroups.Proofs.Group.Request
import AccessGroups.Proofs.Schema.Checked
import AccessGroups.Proofs.Template.Reading
import AccessGroups.Schema.Access

/-!
Role directives and what the schema reads them as. The schema takes a value for what it stands for, so
that what it reads may differ from what a directive says: a word for a truth value is no truth value, and a
text that spells a duration is no number. How far the two agree is said field by field.
-/

set_option autoImplicit false

namespace AccessGroups.Schema

/-- A text or bytes, which the schema may take for something that they spell. -/
def isSpelled : Value → Bool
  | .text _ => true
  | .bytes _ => true
  | _ => false

theorem of_checkZeroOne {small : Bool} {n : Int} {b : Bool}
    (read : checkZeroOne small n = .ok b) : n = (if b then 1 else 0) := by
  unfold checkZeroOne at read
  split at read
  · cases read
    assumption
  · split at read
    · cases read
      assumption
    · split at read <;> cases read

theorem truthy_real_of_toInt? {x : Decimal.Binary64} {b : Bool}
    (whole : x.toInt? = some (if b then 1 else 0)) : (Value.real x).truthy = b := by
  have multiple := (Decimal.Binary64.whole_of_toInt? whole).multiple
  cases b with
  | true =>
    by_contra zero
    have isZero : x.isZero = true := by simpa [Value.truthy] using zero
    rw [Decimal.Binary64.toInt?_of_isZero isZero] at whole
    cases whole
  | false =>
    have isZero : x.isZero = true := Decimal.Binary64.isZero_of_multiple (by simpa using multiple)
    simp [Value.truthy, isZero]

/-- What is read as a truth value is true exactly when it is read so, unless it is spelled: every word is
true where it is not read. -/
theorem truthy_of_checkBoolean {v : Value} {b : Bool} (read : checkBoolean v = .ok b) :
    v.truthy = (b || isSpelled v) := by
  cases v with
  | bool c =>
    cases read
    simp [Value.truthy, isSpelled]
  | int n =>
    have amount : n = if b then 1 else 0 := of_checkZeroOne read
    cases b <;> simp [amount, Value.truthy, isSpelled]
  | text s =>
    have given : s ≠ "" := by
      rintro rfl
      cases read
    simp [Value.truthy, isSpelled, given]
  | bytes bs =>
    have given : bs ≠ [] := by
      rintro rfl
      cases read
    simp [Value.truthy, isSpelled, given]
  | real x =>
    simp only [checkBoolean] at read
    cases whole : x.toInt? with
    | none =>
      rw [whole] at read
      cases read
    | some n =>
      rw [whole] at read
      rw [of_checkZeroOne read] at whole
      simp [truthy_real_of_toInt? whole, isSpelled]
  | _ => cases read

/-- What is read as a whole number equals it, unless it is spelled. -/
theorem same_of_checkInteger {v : Value} {n : Int} (read : checkInteger v = .ok n)
    (plain : isSpelled v = false) : Value.same v (.int n) = true := by
  rw [Value.same_int_comm]
  cases v with
  | int m =>
    cases read
    simp [Value.sameInt]
  | bool b =>
    cases read
    simp [Value.sameInt]
  | real x =>
    simp only [checkInteger] at read
    split at read
    · cases read
    · cases read
    · rename_i whole
      split at read
      · cases read
        simp [Value.sameInt, whole]
      · cases read
  | text s => cases plain
  | bytes bs => cases plain
  | _ => cases read

/-- A bounded number is read like any other and lies between the bounds. -/
theorem of_checkBounded {least greatest : Int} {v : Value} {n : Int}
    (read : checkBounded least greatest v = .ok n) :
    checkInteger v = .ok n ∧ least ≤ n ∧ n ≤ greatest := by
  unfold checkBounded at read
  split at read
  · rename_i whole
    split at read
    · cases read
    · split at read
      · cases read
      · cases read
        exact ⟨whole, by omega, by omega⟩
  · cases read

theorem member_of_given? {es : Entries Value} {field : FieldName} {given : String × Value}
    (found : field.given? es = some given) :
    given.2 = (Value.map es).member field.outer ∨ given.2 = (Value.map es).member field.inner := by
  unfold FieldName.given? at found
  split at found
  · rename_i v outer
    cases found
    exact Or.inl (by simp [Value.member, outer])
  · obtain ⟨v, inner, rfl⟩ := Option.map_eq_some_iff.mp found
    exact Or.inr (by simp [Value.member, inner])

theorem member_of_given?_none {es : Entries Value} {field : FieldName}
    (missing : field.given? es = none) : (Value.map es).member field.outer = .null := by
  unfold FieldName.given? at missing
  split at missing
  · cases missing
  · rename_i absent
    simp [Value.member, absent]

theorem of_required_single {α : Type} {es : Entries Value} {name : String}
    {check : Value → Checked α} {a : α} (passed : required es (.single name) check = .ok a) :
    check ((Value.map es).member name) = .ok a := by
  obtain ⟨given, found, read⟩ := of_required passed
  rcases member_of_given? found with same | same <;> exact same ▸ read

theorem of_optional_single {α : Type} {es : Entries Value} {name : String} {default a : α}
    {check : Value → Checked α} (passed : optional es (.single name) default check = .ok a) :
    (Value.map es).member name = .null ∧ a = default ∨
      check ((Value.map es).member name) = .ok a := by
  rcases of_optional passed with ⟨missing, same⟩ | ⟨given, found, read⟩
  · exact Or.inl ⟨member_of_given?_none missing, same⟩
  · refine Or.inr ?_
    rcases member_of_given? found with same | same <;> exact same ▸ read

/-- A field that is not given under its inner name is the member of its outer name, or it has its
default. -/
theorem of_optional_outer {α : Type} {es : Entries Value} {field : FieldName} {default a : α}
    {check : Value → Checked α} (passed : optional es field default check = .ok a)
    (plain : (Value.map es).member field.inner = .null) (present : check .null ≠ .ok a) :
    (Value.map es).member field.outer = .null ∧ a = default ∨
      check ((Value.map es).member field.outer) = .ok a := by
  rcases of_optional passed with ⟨missing, same⟩ | ⟨given, found, read⟩
  · exact Or.inl ⟨member_of_given?_none missing, same⟩
  · rcases member_of_given? found with outer | inner
    · exact Or.inr (outer ▸ read)
    · rw [inner, plain] at read
      exact absurd read present

namespace Role

theorem of_check {directive : Value} {role : Role} (read : check directive = .ok role) :
    ∃ es, directive = .map es ∧ required es nameField checkText = .ok role.name ∧
      optional es tagSessionField false checkBoolean = .ok role.allowTagSession ∧
      optional es durationField Template.defaultDuration
        (checkBounded Template.leastDuration Template.greatestDuration) =
          .ok role.maxSessionDuration := by
  cases directive with
  | map es =>
    obtain ⟨⟨name, principals, tagSession, duration, extras⟩, passed, rfl⟩ :=
      Checked.of_map_eq_ok read
    simp only [Checked.both_eq_ok_iff] at passed
    obtain ⟨named, -, tagged, timed, -⟩ := passed
    exact ⟨es, rfl, named, tagged, timed⟩
  | _ => cases read

theorem name_of_check {directive : Value} {role : Role} (read : check directive = .ok role) :
    checkText (directive.member "name") = .ok role.name := by
  obtain ⟨es, rfl, named, -, -⟩ := of_check read
  exact of_required_single named

/-- A directive says of tagging what the schema reads, where it says so by a truth value or a number and
under the name of documents. -/
theorem tagSession_of_check {directive : Value} {role : Role} (read : check directive = .ok role)
    (plain : directive.member tagSessionField.inner = .null) :
    (directive.member "allowTagSession").truthy =
      (role.allowTagSession || isSpelled (directive.member "allowTagSession")) := by
  obtain ⟨es, rfl, -, tagged, -⟩ := of_check read
  rcases of_optional_outer tagged plain (by simp [checkBoolean, Checked.fail]) with
    ⟨missing, same⟩ | given
  · have absent : (Value.map es).member "allowTagSession" = .null := missing
    rw [same, absent]
    rfl
  · exact truthy_of_checkBoolean given

/-- The duration of a directive, given or not, reads as that of the role. -/
theorem duration_of_check {directive : Value} {role : Role} (read : check directive = .ok role)
    (plain : directive.member durationField.inner = .null) :
    checkInteger (ResolvedGroup.sessionDuration directive) = .ok role.maxSessionDuration := by
  obtain ⟨es, rfl, -, -, timed⟩ := of_check read
  have refused : checkBounded Template.leastDuration Template.greatestDuration .null ≠
      .ok role.maxSessionDuration := by simp [checkBounded, checkInteger, Checked.fail]
  rcases of_optional_outer timed plain refused with ⟨missing, same⟩ | given
  · have absent : (Value.map es).member "maxSessionDuration" = .null := missing
    rw [ResolvedGroup.sessionDuration, absent, same]
    rfl
  · have whole := (of_checkBounded given).1
    change checkInteger ((Value.map es).member "maxSessionDuration") = _ at whole
    unfold ResolvedGroup.sessionDuration
    split
    · rename_i absent
      rw [absent] at whole
      cases whole
    · exact whole

theorem duration_bounds {directive : Value} {role : Role} (read : check directive = .ok role) :
    Template.leastDuration ≤ role.maxSessionDuration ∧
      role.maxSessionDuration ≤ Template.greatestDuration := by
  obtain ⟨es, -, -, -, timed⟩ := of_check read
  rcases of_optional timed with ⟨-, same⟩ | ⟨given, -, bounded⟩
  · rw [same]
    decide
  · exact (of_checkBounded bounded).2

end Role

namespace Group

def roles (g : Group) : List Role :=
  match g.role with
  | none => []
  | some (.one role) => [role]
  | some (.many roles) => roles

theorem of_checkRoles {v : Value} {read : Option Roles}
    (passed : checkNullable Roles.check v = .ok read) :
    List.Forall₂ (fun directive role => Role.check directive = .ok role) v.oneOrMany
      (roles ⟨none, read⟩) := by
  unfold checkNullable at passed
  split at passed
  · cases passed
    exact .nil
  · obtain ⟨forms, fits, rfl⟩ := Checked.of_map_eq_ok passed
    obtain ⟨form, member, same⟩ := Checked.of_firstOf_eq_ok fits
    rcases List.mem_cons.mp member with rfl | member
    · obtain ⟨role, one, rfl⟩ := Checked.of_map_eq_ok same
      obtain ⟨es, rfl, -⟩ := Role.of_check one
      exact .cons one .nil
    · obtain rfl := List.mem_singleton.mp member
      obtain ⟨many, all, rfl⟩ := Checked.of_map_eq_ok same
      exact of_checkList all

theorem eq_of_checkGrants {g granting : Group} (granted : checkGrants g = .ok granting) :
    g = granting := by
  unfold checkGrants at granted
  split at granted
  · cases granted
  · exact Except.ok.inj granted

/-- The schema reads every directive of a group as the role at its place. -/
theorem roles_of_check {declaration : Value} {g : Group} (read : check declaration = .ok g) :
    List.Forall₂ (fun directive role => Role.check directive = .ok role)
      (declaration.member "role").oneOrMany g.roles := by
  cases declaration with
  | map es =>
    obtain ⟨⟨policy, role, extras⟩, passed, granted⟩ := Checked.of_bind_eq_ok read
    simp only [Checked.both_eq_ok_iff] at passed
    obtain rfl : ⟨policy, role⟩ = g := eq_of_checkGrants granted
    rcases of_optional_single passed.2.1 with ⟨missing, rfl⟩ | checked
    · rw [missing]
      exact .nil
    · exact of_checkRoles checked
  | _ => cases read

end Group

namespace Access

theorem of_check {access : Value} {parsed : Access} (read : check access = .ok parsed) :
    ∃ declared named, access.member "groups" = .map declared ∧
      parsed.groups = textKeyed named ∧
      List.Forall₂ (fun e g => checkText e.1 = .ok g.1 ∧ Group.check e.2 = .ok g.2) declared
        named := by
  cases access with
  | map es =>
    obtain ⟨⟨groups, extras⟩, passed, rfl⟩ := Checked.of_map_eq_ok read
    rw [Checked.both_eq_ok_iff] at passed
    have grouped := of_required_single passed.1
    obtain ⟨found, mapped, counted⟩ := Checked.of_bind_eq_ok grouped
    obtain ⟨declared, named, given, same, each⟩ := of_checkMapping mapped
    have kept : found = groups := by
      split at counted
      · cases counted
      · exact Except.ok.inj counted
    exact ⟨declared, named, given, kept ▸ same, each⟩
  | _ => cases read

/-- A group as the access block declares it and as the schema reads it. A later group whose name reads the
same takes its place in the block that is read. -/
structure ReadsAs (parsed : Access) (declared : Entries Value) (declaration : Value) (g : Group) :
    Prop where
  read : Group.check declaration = .ok g
  place : ∃ front key back name, declared = front ++ (key, declaration) :: back ∧
    checkText key = .ok name ∧
    ((∀ later ∈ back, checkText later.1 ≠ .ok name) →
      Entries.get? parsed.groups (.text name) = some g)

theorem readsAs_of_check {access : Value} {declared : Entries Value} {parsed : Access}
    (read : check access = .ok parsed) (groups : access.member "groups" = .map declared)
    {group : Value × Value} (member : group ∈ declared) :
    ∃ g, parsed.ReadsAs declared group.2 g := by
  obtain ⟨others, named, given, same, each⟩ := of_check read
  obtain rfl : others = declared := Value.map.inj (given.symm.trans groups)
  obtain ⟨front, back, rfl⟩ := List.append_of_mem member
  obtain ⟨key, declaration⟩ := group
  obtain ⟨before, ⟨name, g⟩, after, rfl, ⟨text, checked⟩, later⟩ := exists_split_of_forall₂ each
  refine ⟨g, checked, front, key, back, name, rfl, text, fun last => ?_⟩
  rw [same]
  apply get?_textKeyed
  rintro ⟨other, overriding⟩ among rfl
  obtain ⟨e, behind, again, -⟩ := exists_left_of_forall₂ later _ among
  exact last e behind again

end Access

end AccessGroups.Schema

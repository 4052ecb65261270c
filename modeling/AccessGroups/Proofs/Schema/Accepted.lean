import AccessGroups.Principal
import AccessGroups.Proofs.Schema.Directive

/-!
What the schema lets through. An accepted block has every part that the emission of its groups asks for, of
the kind that it asks for, except that a name may be empty and that a principal may be one that grants
nothing: the schema takes truth values for numbers, bytes for texts, and any mapping for a reference.
-/

set_option autoImplicit false

namespace AccessGroups

/-- A value that stands for itself alone where one or many are asked for. -/
def Value.isSingle : Value → Bool
  | .null => false
  | .list _ => false
  | .tuple _ => false
  | _ => true

theorem Value.oneOrMany_of_isSingle {v : Value} (single : v.isSingle = true) :
    v.oneOrMany = [v] := by
  cases v with
  | null => cases single
  | list vs => cases single
  | tuple vs => cases single
  | _ => rfl

/-- No key of a mapping without an intrinsic function has the mark of one. -/
theorem Principal.intrinsic?_eq_none_iff (es : Entries Value) :
    intrinsic? es = none ↔ ∀ key ∈ es.names, isIntrinsic key = false := by
  induction es with
  | nil => simp [intrinsic?, Entries.names]
  | cons e rest ih =>
    obtain ⟨key, argument⟩ := e
    cases key with
    | text key =>
      cases marked : isIntrinsic key with
      | true => simp [intrinsic?, Entries.names, marked]
      | false => simpa [intrinsic?, Entries.names, marked] using ih
    | _ => exact ih

namespace Schema

/-- A principal that the schema takes for one and that grants nothing. -/
inductive Spurious : Value → Prop
  | bool (b : Bool) : Spurious (.bool b)
  | bytes (bs : List UInt8) : Spurious (.bytes bs)
  | plain {es : Entries Value} (unmarked : ∀ key ∈ es.names, Principal.isIntrinsic key = false) :
      Spurious (.map es)

/-- Of the values that stand for themselves, the spurious ones are those that are no principals. -/
theorem spurious_of_unreadable {raw : Value} {fault : ConfigFault} (single : raw.isSingle = true)
    (unreadable : Principal.ofValue raw = .error fault) :
    Spurious raw ∧ fault = .badPrincipal raw := by
  cases raw with
  | bool b =>
    cases unreadable
    exact ⟨.bool b, rfl⟩
  | bytes bs =>
    cases unreadable
    exact ⟨.bytes bs, rfl⟩
  | map es =>
    simp only [Principal.ofValue] at unreadable
    split at unreadable
    · cases unreadable
    · rename_i unmarked
      cases unreadable
      exact ⟨.plain ((Principal.intrinsic?_eq_none_iff es).mp unmarked), rfl⟩
  | null => cases single
  | list items => cases single
  | tuple items => cases single
  | _ => cases unreadable

theorem PrincipalForm.isSingle_of_check {v : Value} {form : PrincipalForm}
    (read : check v = .ok form) : v.isSingle = true := by
  cases v with
  | null => cases read
  | list items => cases read
  | tuple items => cases read
  | _ => rfl

/-- Accepted principals are one that stands for itself, or a list. -/
theorem Principals.of_check {v : Value} {principals : Principals}
    (read : check v = .ok principals) :
    v.isSingle = true ∨ ∃ many, checkList PrincipalForm.check v = .ok many := by
  obtain ⟨form, member, passed⟩ := Checked.of_firstOf_eq_ok read
  simp only [List.mem_cons, List.not_mem_nil, or_false] at member
  cases v with
  | null => cases read
  | list vs | tuple vs =>
    -- A list is neither a text nor a number nor a mapping, so the last form is the one that fits.
    rcases member with rfl | rfl | rfl | rfl
    · cases passed
    · cases passed
    · cases passed
    · obtain ⟨many, all, -⟩ := Checked.of_map_eq_ok passed
      exact Or.inr ⟨many, all⟩
  | _ => exact Or.inl rfl

theorem Principals.isNull_of_check {v : Value} {principals : Principals}
    (read : check v = .ok principals) : v.isNull = false := by
  cases v with
  | null => cases read
  | _ => rfl

theorem Principals.singles_of_check {v : Value} {principals : Principals}
    (read : check v = .ok principals) : ∀ raw ∈ v.oneOrMany, raw.isSingle = true := by
  intro raw listed
  rcases of_check read with single | ⟨many, all⟩
  · rw [Value.oneOrMany_of_isSingle single] at listed
    rwa [List.mem_singleton.mp listed]
  · obtain ⟨form, -, passed⟩ := exists_right_of_forall₂ (of_checkList all) raw listed
    exact PrincipalForm.isSingle_of_check passed

/-- An accepted text that is empty is the empty text or no bytes. -/
theorem isEmpty_of_checkText {v : Value} {s : String} (read : checkText v = .ok s)
    (falsy : v.truthy = false) : v = .text "" ∨ v = .bytes [] := by
  cases v with
  | text t =>
    have empty : t = "" := by simpa [Value.truthy] using falsy
    exact Or.inl (congrArg Value.text empty)
  | bytes bs =>
    have empty : bs = [] := by simpa [Value.truthy] using falsy
    exact Or.inr (congrArg Value.bytes empty)
  | _ => cases read

theorem Policy.principals_of_check {v : Value} {policy : Policy} (read : check v = .ok policy) :
    Principals.check (v.member "principals") = .ok policy.principals := by
  cases v with
  | map es =>
    obtain ⟨principals, passed, rfl⟩ := Checked.of_map_eq_ok read
    exact of_required_single passed
  | _ => cases read

theorem Role.principals_of_check {directive : Value} {role : Role}
    (read : check directive = .ok role) :
    Principals.check (directive.member "principals") = .ok role.principals := by
  cases directive with
  | map es =>
    obtain ⟨⟨name, principals, tagSession, duration, extras⟩, passed, rfl⟩ :=
      Checked.of_map_eq_ok read
    simp only [Checked.both_eq_ok_iff] at passed
    exact of_required_single passed.2.1
  | _ => cases read

namespace Group

theorem policy_of_check {declaration : Value} {g : Group} (read : check declaration = .ok g) :
    declaration.member "policy" = .null ∨
      ∃ policy, Policy.check (declaration.member "policy") = .ok policy := by
  cases declaration with
  | map es =>
    obtain ⟨⟨policy, role, extras⟩, passed, -⟩ := Checked.of_bind_eq_ok read
    simp only [Checked.both_eq_ok_iff] at passed
    rcases of_optional_single passed.1 with ⟨missing, -⟩ | checked
    · exact Or.inl missing
    · unfold checkNullable at checked
      split at checked
      · rename_i absent
        exact Or.inl absent
      · obtain ⟨policy, accepted, -⟩ := Checked.of_map_eq_ok checked
        exact Or.inr ⟨policy, accepted⟩
  | _ => cases read

theorem role_of_check {declaration directive : Value} {g : Group} (read : check declaration = .ok g)
    (stated : directive ∈ (declaration.member "role").oneOrMany) :
    ∃ role, Role.check directive = .ok role := by
  obtain ⟨role, -, accepted⟩ := exists_right_of_forall₂ (roles_of_check read) directive stated
  exact ⟨role, accepted⟩

theorem mapping_of_check {declaration : Value} {g : Group} (read : check declaration = .ok g) :
    ∃ es, declaration = .map es := by
  cases declaration with
  | map es => exact ⟨es, rfl⟩
  | _ => cases read

end Group

end Schema

end AccessGroups

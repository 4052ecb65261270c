import AccessGroups.Schema.Container
import AccessGroups.Proofs.Value.Mapping
import Mathlib.Data.List.Forall2
import Mathlib.Data.List.Induction

/-!
Checks that succeed. A compound check succeeds with what its parts succeed with: a list with the items,
a mapping with the entries, a record with the fields that are given.
-/

set_option autoImplicit false

namespace AccessGroups

namespace Checked

variable {α β : Type}

@[simp] theorem under_eq_ok_iff (place : Value) (check : Checked α) (a : α) :
    under place check = .ok a ↔ check = .ok a := by
  cases check with
  | ok b => rfl
  | error issues => simp [under]

@[simp] theorem both_eq_ok_iff (first : Checked α) (second : Checked β) (a : α) (b : β) :
    both first second = .ok (a, b) ↔ first = .ok a ∧ second = .ok b := by
  cases first <;> cases second <;> simp [both]

theorem of_map_eq_ok {check : Checked α} {f : α → β} {b : β} (mapped : check.map f = .ok b) :
    ∃ a, check = .ok a ∧ f a = b := by
  cases check with
  | ok a => exact ⟨a, rfl, Except.ok.inj mapped⟩
  | error issues => cases mapped

theorem of_bind_eq_ok {check : Checked α} {f : α → Checked β} {b : β}
    (bound : check.bind f = .ok b) : ∃ a, check = .ok a ∧ f a = .ok b := by
  cases check with
  | ok a => exact ⟨a, rfl, bound⟩
  | error issues => cases bound

theorem of_all_eq_ok {checks : List (Checked α)} {as : List α} (passed : all checks = .ok as) :
    List.Forall₂ (fun check a => check = .ok a) checks as := by
  induction checks generalizing as with
  | nil =>
    cases passed
    exact .nil
  | cons check rest ih =>
    obtain ⟨⟨a, others⟩, both, rfl⟩ := of_map_eq_ok passed
    rw [both_eq_ok_iff] at both
    exact .cons both.1 (ih both.2)

/-- What several forms are read as, one of them is. -/
theorem of_firstOf_eq_ok {forms : List (String × Checked α)} {a : α}
    (read : firstOf forms = .ok a) : ∃ form ∈ forms, form.2 = .ok a := by
  induction forms with
  | nil => cases read
  | cons form rest ih =>
    obtain ⟨label, check⟩ := form
    cases check with
    | ok b =>
      cases read
      exact ⟨_, List.mem_cons_self, rfl⟩
    | error issues =>
      cases later : firstOf rest with
      | ok b =>
        simp only [firstOf, later] at read
        obtain ⟨other, member, same⟩ := ih (later.trans read)
        exact ⟨other, List.mem_cons_of_mem _ member, same⟩
      | error more =>
        simp only [firstOf, later] at read
        cases read

end Checked

/-- What stands at a place of one list has its counterpart at the same place of the other. -/
theorem exists_split_of_forall₂ {α β : Type} {R : α → β → Prop} {front back : List α} {a : α}
    {bs : List β} (each : List.Forall₂ R (front ++ a :: back) bs) :
    ∃ before b after, bs = before ++ b :: after ∧ R a b ∧ List.Forall₂ R back after := by
  induction front generalizing bs with
  | nil =>
    cases each with
    | cons first others => exact ⟨[], _, _, rfl, first, others⟩
  | cons other rest ih =>
    cases each with
    | @cons _ b _ _ first others =>
      obtain ⟨before, c, after, rfl, related, later⟩ := ih others
      exact ⟨b :: before, c, after, rfl, related, later⟩

theorem exists_left_of_forall₂ {α β : Type} {R : α → β → Prop} {as : List α} {bs : List β}
    (each : List.Forall₂ R as bs) : ∀ b ∈ bs, ∃ a ∈ as, R a b := by
  induction each with
  | nil =>
    intro b member
    cases member
  | cons first others ih =>
    intro b member
    rcases List.mem_cons.mp member with rfl | member
    · exact ⟨_, List.mem_cons_self, first⟩
    · obtain ⟨a, among, related⟩ := ih b member
      exact ⟨a, List.mem_cons_of_mem _ among, related⟩

theorem exists_right_of_forall₂ {α β : Type} {R : α → β → Prop} {as : List α} {bs : List β}
    (each : List.Forall₂ R as bs) : ∀ a ∈ as, ∃ b ∈ bs, R a b :=
  exists_left_of_forall₂ (List.Forall₂.flip (R := flip R) each)

theorem exists_pair_of_forall₂ {α β : Type} {R : α → β → Prop} {as : List α} {bs : List β}
    (each : List.Forall₂ R as bs) {a : α} (member : a ∈ as) : ∃ b, (a, b) ∈ as.zip bs := by
  obtain ⟨index, inside, rfl⟩ := List.mem_iff_getElem.mp member
  have counterpart : index < bs.length := each.length_eq ▸ inside
  have both : index < (as.zip bs).length := by
    rw [List.length_zip]
    omega
  refine ⟨bs[index], ?_⟩
  rw [← List.getElem_zip (h := both)]
  exact List.getElem_mem both

namespace Schema

variable {α : Type}

theorem of_checkItems {check : Value → Checked α} {index : Nat} {vs : List Value} {as : List α}
    (passed : List.Forall₂ (fun item a => item = .ok a) (checkItems check index vs) as) :
    List.Forall₂ (fun v a => check v = .ok a) vs as := by
  induction vs generalizing index as with
  | nil =>
    cases passed
    exact .nil
  | cons v rest ih =>
    cases passed with
    | cons first others => exact .cons ((Checked.under_eq_ok_iff _ _ _).mp first) (ih others)

theorem of_checkList {check : Value → Checked α} {v : Value} {as : List α}
    (passed : checkList check v = .ok as) :
    List.Forall₂ (fun item a => check item = .ok a) v.oneOrMany as := by
  cases v with
  | list vs => exact of_checkItems (Checked.of_all_eq_ok passed)
  | tuple vs => exact of_checkItems (Checked.of_all_eq_ok passed)
  | _ => cases passed

theorem of_checkEntries {check : Value → Checked α} {es : Entries Value}
    {named : List (String × α)}
    (passed : List.Forall₂ (fun entry a => entry = .ok a) (es.map (checkEntry check)) named) :
    List.Forall₂ (fun e a => checkText e.1 = .ok a.1 ∧ check e.2 = .ok a.2) es named := by
  induction es generalizing named with
  | nil =>
    cases passed
    exact .nil
  | cons e rest ih =>
    cases passed with
    | @cons _ a _ _ first others =>
      obtain ⟨name, value⟩ := a
      simp only [checkEntry, Checked.under_eq_ok_iff, Checked.both_eq_ok_iff] at first
      exact .cons first (ih others)

/-- A checked mapping has the entries of the value, of which a later one wins over an earlier one under
the same text. -/
theorem of_checkMapping {check : Value → Checked α} {v : Value} {read : Entries α}
    (passed : checkMapping check v = .ok read) :
    ∃ es named, v = .map es ∧ read = textKeyed named ∧
      List.Forall₂ (fun e a => checkText e.1 = .ok a.1 ∧ check e.2 = .ok a.2) es named := by
  cases v with
  | map es =>
    obtain ⟨named, all, rfl⟩ := Checked.of_map_eq_ok passed
    exact ⟨es, named, rfl, rfl, of_checkEntries (Checked.of_all_eq_ok all)⟩
  | _ => cases passed

theorem get?_textKeyed_append (named : List (String × α)) (last : String × α) (name : String) :
    Entries.get? (textKeyed (named ++ [last])) (.text name) =
      if last.1 = name then some last.2 else Entries.get? (textKeyed named) (.text name) := by
  simp only [textKeyed, Entries.ofList, List.map_append, List.map_cons, List.map_nil,
    List.foldl_append, List.foldl_cons, List.foldl_nil]
  exact Entries.get?_put_text _ last.1 name last.2

/-- The last entry under a text is the one that is found. -/
theorem get?_textKeyed (front back : List (String × α)) (name : String) (a : α)
    (last : ∀ e ∈ back, e.1 ≠ name) :
    Entries.get? (textKeyed (front ++ (name, a) :: back)) (.text name) = some a := by
  induction back using List.reverseRecOn with
  | nil => rw [get?_textKeyed_append, if_pos rfl]
  | append_singleton rest e ih =>
    have apart : e.1 ≠ name := last e (by simp)
    have whole : front ++ (name, a) :: (rest ++ [e]) = (front ++ (name, a) :: rest) ++ [e] := by
      simp
    rw [whole, get?_textKeyed_append, if_neg apart]
    exact ih fun other member => last other (List.mem_append_left _ member)

/-- A field that must be given is given, and its value passes the check. -/
theorem of_required {es : Entries Value} {field : FieldName} {check : Value → Checked α} {a : α}
    (passed : required es field check = .ok a) :
    ∃ given, field.given? es = some given ∧ check given.2 = .ok a := by
  unfold required at passed
  split at passed
  · rename_i name v given
    exact ⟨(name, v), given, (Checked.under_eq_ok_iff _ _ _).mp passed⟩
  · cases passed

/-- A field that may be left out has its default then, and else its value passes the check. -/
theorem of_optional {es : Entries Value} {field : FieldName} {default a : α}
    {check : Value → Checked α} (passed : optional es field default check = .ok a) :
    field.given? es = none ∧ a = default ∨
      ∃ given, field.given? es = some given ∧ check given.2 = .ok a := by
  unfold optional at passed
  split at passed
  · rename_i name v given
    exact Or.inr ⟨(name, v), given, (Checked.under_eq_ok_iff _ _ _).mp passed⟩
  · rename_i missing
    exact Or.inl ⟨missing, (Except.ok.inj passed).symm⟩

end Schema

end AccessGroups

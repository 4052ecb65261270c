import AccessGroups.Proofs.Decimal.Whole
import AccessGroups.Value.Entries

/-!
Keys of mappings. A text is the same as itself and as nothing else, and two values that are both the
same as a third one are the same, so that a key belongs to at most one entry of a mapping. Which of two
keys comes first makes no difference.
-/

set_option autoImplicit false

namespace AccessGroups

namespace Value

theorem same_text_iff (v : Value) (s : String) : same v (.text s) = true ↔ v = .text s := by
  cases v <;> simp [same, sameInt, sameReal]

theorem text_same_iff (s : String) (v : Value) : same (.text s) v = true ↔ v = .text s := by
  cases v with
  | text t => rw [same_text, beq_iff_eq, Value.text.injEq, eq_comm]
  | _ => simp [same]

theorem same_text_false (v : Value) (s : String) (other : v ≠ .text s) :
    same v (.text s) = false := by
  rw [Bool.eq_false_iff]
  exact fun same => other ((same_text_iff v s).mp same)

/-- Whether a value and an integer are the same does not depend on which of them comes first. -/
theorem same_int_comm (v : Value) (n : Int) : same v (.int n) = sameInt n v := by
  cases v <;> simp [same, sameInt, sameReal, Bool.beq_comm]

theorem same_bool_comm (v : Value) (b : Bool) :
    same v (.bool b) = sameInt (if b then 1 else 0) v := by
  cases v <;> simp [same, sameInt, sameReal, Bool.beq_comm]

/-- Values that are the same as one integer are the same. -/
theorem same_of_sameInt {v w : Value} {n : Int} (left : sameInt n v = true)
    (right : sameInt n w = true) : same v w = true := by
  cases v with
  | bool b =>
    have amount : n = if b then 1 else 0 := by simpa [sameInt] using left
    rw [same, ← amount]
    exact right
  | int m =>
    have amount : m = n := by simpa [sameInt] using left
    rw [same, amount]
    exact right
  | real x =>
    have first : x.toInt? = some n := by simpa [sameInt] using left
    cases w with
    | bool b =>
      have amount : n = if b then 1 else 0 := by simpa [sameInt] using right
      simp [same, sameReal, first, amount]
    | int m =>
      have amount : m = n := by simpa [sameInt] using right
      simp [same, sameReal, first, amount]
    | real y =>
      have second : y.toInt? = some n := by simpa [sameInt] using right
      exact Decimal.Binary64.equals_of_toInt? first second
    | _ => simp [sameInt] at right
  | _ => simp [sameInt] at left

/-- A value that is the same as a whole number is the same as the integer. -/
theorem sameInt_of_same_real {v : Value} {z : Decimal.Binary64} {n : Int}
    (whole : z.toInt? = some n) (same : same v (.real z) = true) : sameInt n v = true := by
  cases v with
  | real x =>
    simp only [sameInt, Decimal.Binary64.toInt?_eq_of_equals same, whole, beq_self_eq_true]
  | _ => simp_all [Value.same, sameInt]

/-- Values that are the same as one floating-point number are the same. -/
theorem same_of_same_real {v w : Value} {z : Decimal.Binary64} (left : same v (.real z) = true)
    (right : same w (.real z) = true) : same v w = true := by
  cases whole : z.toInt? with
  | some n => exact same_of_sameInt (sameInt_of_same_real whole left) (sameInt_of_same_real whole right)
  | none =>
    cases v with
    | real x =>
      cases w with
      | real y => exact Decimal.Binary64.equals_of_common left right
      | _ => simp [same, sameInt, whole] at right
    | _ => simp [same, sameInt, whole] at left

mutual

/-- Values that are the same as one key are the same. -/
theorem same_of_common {v w : Value} : (r : Value) → (key : hashable r = true) →
    (left : same v r = true) → (right : same w r = true) → same v w = true
  | .null, _, left, right => by
    cases v <;> simp [same, sameInt, sameReal] at left
    cases w <;> simp [same, sameInt, sameReal] at right
    rfl
  | .bool b, _, left, right => by
    rw [same_bool_comm] at left right
    exact same_of_sameInt left right
  | .int n, _, left, right => by
    rw [same_int_comm] at left right
    exact same_of_sameInt left right
  | .real z, _, left, right => same_of_same_real left right
  | .text s, _, left, right => by
    rw [same_text_iff] at left right
    simp [left, right]
  | .bytes bs, _, left, right => by
    cases v <;> simp [same, sameInt, sameReal] at left
    cases w <;> simp [same, sameInt, sameReal] at right
    simp [same, left, right]
  | .tuple items, key, left, right => by
    cases v <;> simp [same, sameInt, sameReal] at left
    cases w <;> simp [same, sameInt, sameReal] at right
    rw [same]
    exact sameItems_of_common items (by simpa [hashable] using key) left right
  | .list _, key, _, _ => by simp [hashable] at key
  | .map _, key, _, _ => by simp [hashable] at key

theorem sameItems_of_common {vs ws : List Value} : (rs : List Value) →
    (keys : allHashable rs = true) → (left : sameItems vs rs = true) →
    (right : sameItems ws rs = true) → sameItems vs ws = true
  | [], _, left, right => by
    cases vs <;> simp [sameItems] at left
    cases ws <;> simp [sameItems] at right
    rfl
  | r :: rs, keys, left, right => by
    cases vs <;> simp [sameItems] at left
    cases ws <;> simp [sameItems] at right
    simp only [allHashable, Bool.and_eq_true] at keys
    simp only [sameItems, Bool.and_eq_true]
    exact ⟨same_of_common r keys.1 left.1 right.1, sameItems_of_common rs keys.2 left.2 right.2⟩

end

theorem same_real_comm (v : Value) (x : Decimal.Binary64) : same v (.real x) = sameReal x v := by
  cases v with
  | real y => exact Decimal.Binary64.equals_comm y x
  | _ => simp [same, sameInt, sameReal]

mutual

/-- Whether a value and a key are the same does not depend on which of them comes first. -/
theorem same_comm (v : Value) : (r : Value) → (key : hashable r = true) → same v r = same r v
  | .null, _ => by cases v <;> simp [same, sameInt, sameReal]
  | .bool b, _ => by rw [same_bool_comm, same]
  | .int n, _ => by rw [same_int_comm, same]
  | .real x, _ => by rw [same_real_comm, same]
  | .text s, _ => by cases v <;> simp [same, sameInt, sameReal, Bool.beq_comm]
  | .bytes bs, _ => by cases v <;> simp [same, sameInt, sameReal, Bool.beq_comm]
  | .tuple items, key => by
    cases v with
    | tuple others =>
      rw [same, same]
      exact sameItems_comm others items (by simpa [hashable] using key)
    | _ => simp [same, sameInt, sameReal]
  | .list _, key => by simp [hashable] at key
  | .map _, key => by simp [hashable] at key

theorem sameItems_comm (vs : List Value) : (rs : List Value) → (keys : allHashable rs = true) →
    sameItems vs rs = sameItems rs vs
  | [], _ => by cases vs <;> simp [sameItems]
  | r :: rs, keys => by
    simp only [allHashable, Bool.and_eq_true] at keys
    cases vs with
    | nil => simp [sameItems]
    | cons v others =>
      rw [sameItems, sameItems, same_comm v r keys.1, sameItems_comm others rs keys.2]

end

/-- Keys that are the same are the same as the same values. -/
theorem same_congr {r s : Value} (first : hashable r = true) (second : hashable s = true)
    (equal : same r s = true) (v : Value) : same v r = same v s := by
  have reversed : same s r = true := by rwa [same_comm s r first]
  rw [Bool.eq_iff_iff]
  constructor
  · intro left
    exact same_of_common r first left reversed
  · intro left
    exact same_of_common s second left equal

end Value

end AccessGroups

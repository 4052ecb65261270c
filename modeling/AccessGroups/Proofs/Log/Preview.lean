import AccessGroups.Log.Preview
import AccessGroups.Proofs.Text.Spacing

/-!
Bounded previews. A preview is the text of its value on one line, or as much of it as leaves room for an
ellipsis; a positive limit is kept, and a preview that is previewed again under the same limit is the same.
-/

set_option autoImplicit false

namespace AccessGroups.Log

/-- The text of a value on one line: runs of blanks are collapsed and the ends trimmed. `null` has none. -/
def lineText (v : Value) : List Char :=
  match v with
  | .null => []
  | v => Text.trimmed (Text.collapsed (previewSource v))

section Cut

variable {cs : List Char} {limit : Int}

theorem cut_of_short (short : (cs.length : Int) ≤ limit) : cut cs limit = cs := by
  rw [cut, if_neg (by omega)]

theorem cut_of_long (positive : 1 ≤ limit) (long : limit < cs.length) :
    cut cs limit = cs.take (limit - 1).toNat ++ ['…'] := by
  rw [cut, if_pos long, keptLength, if_pos positive]

/-- Limits below one are not kept, except that nothing is within a limit of zero. -/
theorem length_cut_le_iff (cs : List Char) (limit : Int) :
    ((cut cs limit).length : Int) ≤ limit ↔ 1 ≤ limit ∨ limit = 0 ∧ cs = [] := by
  rw [← List.length_eq_zero_iff]
  by_cases long : limit < cs.length
  · rw [cut, if_pos long, keptLength]
    by_cases positive : 1 ≤ limit
    · rw [if_pos positive]
      simp only [List.length_append, List.length_take, List.length_singleton]
      omega
    · simp only [List.length_append, List.length_singleton]
      omega
  · rw [cut_of_short (by omega)]
    omega

/-- What is cut may end next to a space; the ellipsis that is put there is no blank. -/
theorem singleSpaced_cut (spaced : Text.SingleSpaced cs) (limit : Int) :
    Text.SingleSpaced (cut cs limit) := by
  rw [cut]
  split
  · exact spaced.take_append _ (by decide)
  · exact spaced

end Cut

section Shown

variable {v : Value}

theorem previewWithin_int (v : Value) (limit : Int) :
    previewWithin v (.int limit) = .ok (String.ofList (previewChars v limit)) := by
  cases v <;> rfl

theorem previewChars_eq_cut (shown : v ≠ .null) (limit : Int) :
    previewChars v limit = cut (lineText v) limit := by
  cases v <;>
    first
      | exact absurd rfl shown
      | exact congrArg (cut · limit) (Text.singleSpaced_eq_trimmed _)

theorem singleSpaced_lineText (v : Value) : Text.SingleSpaced (lineText v) := by
  unfold lineText
  split
  · exact .nil
  · rw [← Text.singleSpaced_eq_trimmed]
    exact .of_singleSpaced _

theorem singleSpaced_previewChars (v : Value) (limit : Int) :
    Text.SingleSpaced (previewChars v limit) := by
  by_cases none : v = .null
  · subst none
    exact .nil
  · rw [previewChars_eq_cut none]
    exact singleSpaced_cut (singleSpaced_lineText v) limit

theorem length_previewChars_le_iff (v : Value) (limit : Int) :
    ((previewChars v limit).length : Int) ≤ limit ↔ 1 ≤ limit ∨ limit = 0 ∧ lineText v = [] := by
  by_cases none : v = .null
  · subst none
    have bare : lineText .null = [] := rfl
    simp only [bare, and_true, previewChars, List.length_nil]
    omega
  · rw [previewChars_eq_cut none, length_cut_le_iff]

theorem previewChars_of_short (v : Value) {limit : Int}
    (short : ((lineText v).length : Int) ≤ limit) : previewChars v limit = lineText v := by
  by_cases none : v = .null
  · subst none
    rfl
  · rw [previewChars_eq_cut none, cut_of_short short]

theorem previewChars_of_long (v : Value) {limit : Int} (positive : 1 ≤ limit)
    (long : limit < (lineText v).length) :
    previewChars v limit = (lineText v).take (limit - 1).toNat ++ ['…'] := by
  have some : v ≠ .null := by
    rintro rfl
    simp only [lineText, List.length_nil] at long
    omega
  rw [previewChars_eq_cut some, cut_of_long positive long]

/-- A single-spaced text within the limit is its own preview. -/
theorem previewChars_text {s : String} {limit : Int} (spaced : Text.SingleSpaced s.toList)
    (short : (s.toList.length : Int) ≤ limit) : previewChars (.text s) limit = s.toList := by
  have kept : Text.singleSpaced (previewSource (.text s)) = s.toList :=
    Text.singleSpaced_eq_self spaced
  rw [previewChars, kept, cut_of_short short]
  exact nofun

end Shown

/-- A preview is single-spaced. Under a positive limit it is the text of the value on one line, cut where
that is longer, and it is its own preview; other limits are kept only by nothing at a limit of zero. -/
theorem previewWithin_bounded (v : Value) (limit : Int) :
    ∃ shown : String, previewWithin v (.int limit) = .ok shown ∧
      Text.SingleSpaced shown.toList ∧
      (1 ≤ limit → (lineText v).length ≤ limit → shown.toList = lineText v) ∧
      (1 ≤ limit → limit < (lineText v).length →
        shown.toList = (lineText v).take (limit - 1).toNat ++ ['…']) ∧
      ((shown.length : Int) ≤ limit ↔ 1 ≤ limit ∨ limit = 0 ∧ lineText v = []) ∧
      (1 ≤ limit → previewWithin (.text shown) (.int limit) = .ok shown) := by
  refine ⟨String.ofList (previewChars v limit), previewWithin_int v limit, ?_⟩
  have spaced := singleSpaced_previewChars v limit
  have bound := length_previewChars_le_iff v limit
  have chars : (String.ofList (previewChars v limit)).toList = previewChars v limit :=
    String.toList_ofList
  rw [← String.length_toList, chars]
  refine ⟨spaced, fun _ => previewChars_of_short v, previewChars_of_long v, bound, ?_⟩
  intro positive
  rw [previewWithin_int, previewChars_text, String.ofList_toList]
  · rw [chars]
    exact spaced
  · rw [chars]
    exact bound.mpr (.inl positive)

/-- A text that is cut behind a space. -/
theorem previewWithin_bounded_behind_space :
    ∃ shown : String, previewWithin (.text " a\n\tb  c") (.int 3) = .ok shown ∧
      shown.toList = ['a', ' ', '…'] ∧ Text.SingleSpaced shown.toList ∧
      (shown.length : Int) ≤ 3 ∧ previewWithin (.text shown) (.int 3) = .ok shown := by
  obtain ⟨shown, previewed, spaced, -, cut, bound, again⟩ :=
    previewWithin_bounded (.text " a\n\tb  c") 3
  have line : lineText (.text " a\n\tb  c") = ['a', ' ', 'b', ' ', 'c'] := by decide
  rw [line] at cut
  exact ⟨shown, previewed, cut (by decide) (by decide), spaced, bound.mpr (.inl (by decide)),
    again (by decide)⟩

end AccessGroups.Log

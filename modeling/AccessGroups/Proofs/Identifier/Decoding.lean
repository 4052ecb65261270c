import AccessGroups.Identifier.LogicalId
import AccessGroups.Identifier.ResourceName

/-!
Reading generated names back. The names of functions that are spelled with lower-case letters, digits,
dashes and underscores survive in the names of their permissions: a dash and an underscore are spelled
with capitals that the name itself cannot hold, and so is the suffix that ends a logical id.
-/

set_option autoImplicit false

namespace AccessGroups.Identifier

/-- Lower-case letters and digits. -/
def isPlainChar (c : Char) : Bool := c.isLower || c.isDigit

def isPlainNameChar (c : Char) : Bool := isPlainChar c || c == '-' || c == '_'

/-- Function names that hold such characters only and start with a letter or a digit. -/
def isPlainName (name : String) : Bool :=
  match name.toList with
  | [] => false
  | c :: cs => isPlainChar c && cs.all isPlainNameChar

theorem toNat_of_isPlainChar {c : Char} (plain : isPlainChar c = true) :
    (97 ≤ c.toNat ∧ c.toNat ≤ 122) ∨ (48 ≤ c.toNat ∧ c.toNat ≤ 57) := by
  have ranges : (decide (97 ≤ c.val) && decide (c.val ≤ 122) ||
      decide (48 ≤ c.val) && decide (c.val ≤ 57)) = true := plain
  simpa [UInt32.le_iff_toNat_le] using ranges

theorem toNat_toUpper (c : Char) :
    c.toUpper.toNat = if 97 ≤ c.toNat ∧ c.toNat ≤ 122 then c.toNat - 32 else c.toNat := by
  have lower : 'a'.val ≤ c.val ∧ c.val ≤ 'z'.val ↔ 97 ≤ c.toNat ∧ c.toNat ≤ 122 := by
    simp only [UInt32.le_iff_toNat_le]
    rfl
  unfold Char.toUpper
  by_cases range : 97 ≤ c.toNat ∧ c.toNat ≤ 122
  · rw [dif_pos (lower.mpr range), if_pos range]
    have shift : (c.val + ('A'.val - 'a'.val)).toNat =
        (c.toNat + (2 ^ 32 - 32)) % 2 ^ 32 := UInt32.toNat_add ..
    change (c.val + ('A'.val - 'a'.val)).toNat = _
    omega
  · rw [dif_neg fun inside => range (lower.mp inside), if_neg range]

theorem toUpper_injective {c d : Char} (plain : isPlainChar c = true)
    (other : isPlainChar d = true) (same : c.toUpper = d.toUpper) : c = d := by
  have raised := congrArg Char.toNat same
  rw [toNat_toUpper, toNat_toUpper] at raised
  have here := toNat_of_isPlainChar plain
  have there := toNat_of_isPlainChar other
  apply Char.toNat_inj.mp
  split at raised <;> split at raised <;> omega

theorem upperChar_of_ascii {c : Char} (ascii : c.toNat < 0x80) : Text.upperChar c = [c.toUpper] := by
  simp only [Text.upperChar, ascii, ↓reduceIte]

theorem upperChar_of_isPlainChar {c : Char} (plain : isPlainChar c = true) :
    Text.upperChar c = [c.toUpper] := by
  have range := toNat_of_isPlainChar plain
  exact upperChar_of_ascii (by omega)

/-- The character that a spelled character starts with. -/
def initialOf (c : Char) : Char := if c == '-' then 'D' else if c == '_' then 'U' else c

theorem spellSeparator_eq (c : Char) : ∃ rest, spellSeparator c = initialOf c :: rest := by
  unfold spellSeparator initialOf
  split
  · exact ⟨"ash".toList, by decide⟩
  · split
    · exact ⟨"nderscore".toList, by decide⟩
    · exact ⟨[], rfl⟩

theorem initialOf_cases {c : Char} (part : isPlainNameChar c = true) :
    (c = '-' ∧ initialOf c = 'D') ∨ (c = '_' ∧ initialOf c = 'U') ∨
      (isPlainChar c = true ∧ initialOf c = c ∧ spellSeparator c = [c]) := by
  unfold initialOf spellSeparator
  by_cases dash : c = '-'
  · exact Or.inl ⟨dash, by simp [dash]⟩
  · by_cases underscore : c = '_'
    · exact Or.inr (Or.inl ⟨underscore, by simp [underscore]⟩)
    · simpa [dash, underscore, isPlainNameChar] using part

/-- What a name character is spelled with tells the character. -/
theorem initialOf_injective {c d : Char} (part : isPlainNameChar c = true)
    (other : isPlainNameChar d = true) (same : initialOf c = initialOf d) : c = d := by
  have dash : isPlainChar 'D' = false := by decide
  have underscore : isPlainChar 'U' = false := by decide
  rcases initialOf_cases part with ⟨hc, here⟩ | ⟨hc, here⟩ | ⟨plain, here, -⟩ <;>
    rcases initialOf_cases other with ⟨hd, there⟩ | ⟨hd, there⟩ | ⟨plain', there, -⟩ <;>
    grind

theorem spellSeparator_of_initialOf {c : Char} (part : isPlainNameChar c = true)
    (plain : isPlainChar (initialOf c) = true) : initialOf c = c ∧ spellSeparator c = [c] := by
  rcases initialOf_cases part with ⟨-, here⟩ | ⟨-, here⟩ | ⟨-, here, spelled⟩
  · rw [here] at plain
    exact absurd plain (by decide)
  · rw [here] at plain
    exact absurd plain (by decide)
  · exact ⟨here, spelled⟩

/-- No name character is spelled with a capital other than those of the separators. -/
theorem initialOf_ne {c capital : Char} (part : isPlainNameChar c = true)
    (notPlain : isPlainChar capital = false) (notDash : capital ≠ 'D')
    (notUnderscore : capital ≠ 'U') : initialOf c ≠ capital := by
  rintro rfl
  rcases initialOf_cases part with ⟨-, here⟩ | ⟨-, here⟩ | ⟨plain, here, -⟩
  · exact notDash here
  · exact notUnderscore here
  · rw [here, plain] at notPlain
    cases notPlain

/-- Spelled names before a capital of their own are read back, character by character. -/
theorem spelled_injective {first second : List Char}
    (parts : ∀ c ∈ first, isPlainNameChar c = true)
    (others : ∀ c ∈ second, isPlainNameChar c = true) {x y : List Char}
    (same : first.flatMap spellSeparator ++ 'L' :: x = second.flatMap spellSeparator ++ 'L' :: y) :
    first = second ∧ x = y := by
  have final : isPlainChar 'L' = false := by decide
  induction first generalizing second with
  | nil =>
    cases second with
    | nil => exact ⟨rfl, by simpa using same⟩
    | cons d ds =>
      obtain ⟨rest, spelled⟩ := spellSeparator_eq d
      simp only [List.flatMap_nil, List.nil_append, List.flatMap_cons, spelled, List.cons_append,
        List.cons.injEq] at same
      have apart := initialOf_ne (others d List.mem_cons_self) final (by decide) (by decide)
      exact absurd same.1.symm apart
  | cons c cs ih =>
    have here := parts c List.mem_cons_self
    obtain ⟨rest, spelled⟩ := spellSeparator_eq c
    cases second with
    | nil =>
      simp only [List.flatMap_nil, List.nil_append, List.flatMap_cons, spelled, List.cons_append,
        List.cons.injEq] at same
      exact absurd same.1 (initialOf_ne here final (by decide) (by decide))
    | cons d ds =>
      obtain ⟨rest', spelled'⟩ := spellSeparator_eq d
      have initial : initialOf c = initialOf d := by
        simp only [List.flatMap_cons, spelled, spelled', List.cons_append, List.cons.injEq] at same
        exact same.1
      obtain rfl := initialOf_injective here (others d List.mem_cons_self) initial
      rw [List.flatMap_cons, List.flatMap_cons, List.append_assoc, List.append_assoc,
        List.append_cancel_left_eq] at same
      obtain ⟨rfl, ends⟩ := ih (fun e member => parts e (List.mem_cons_of_mem _ member))
        (fun e member => others e (List.mem_cons_of_mem _ member)) same
      exact ⟨rfl, ends⟩

/-- Plain characters at the front of a spelled name are characters of the name. -/
theorem spelled_starts_with {name : List Char} (parts : ∀ c ∈ name, isPlainNameChar c = true)
    {front x rest : List Char} (plain : ∀ c ∈ front, isPlainChar c = true)
    (same : name.flatMap spellSeparator ++ 'L' :: x = front ++ rest) :
    ∃ others : List Char, (∀ c ∈ others, isPlainNameChar c = true) ∧
      others.flatMap spellSeparator ++ 'L' :: x = rest := by
  induction front generalizing name with
  | nil => exact ⟨name, parts, same⟩
  | cons c cs ih =>
    have here := plain c List.mem_cons_self
    cases name with
    | nil =>
      simp only [List.flatMap_nil, List.nil_append, List.cons_append, List.cons.injEq] at same
      rw [← same.1] at here
      exact absurd here (by decide)
    | cons d ds =>
      obtain ⟨tail, spelled⟩ := spellSeparator_eq d
      have initial : initialOf d = c := by
        rw [List.flatMap_cons, spelled, List.cons_append, List.cons_append, List.cons_append,
          List.cons.injEq] at same
        exact same.1
      obtain ⟨-, whole⟩ := spellSeparator_of_initialOf (parts d List.mem_cons_self)
        (by rw [initial]; exact here)
      rw [List.flatMap_cons, whole, List.append_assoc, List.singleton_append, List.cons_append,
        List.cons.injEq] at same
      exact ih (fun e member => parts e (List.mem_cons_of_mem _ member))
        (fun e member => plain e (List.mem_cons_of_mem _ member)) same.2

/-- The logical id of a plain name: the raised first character, the rest as it is spelled, and the
suffix. -/
theorem logicalId_toList {name : String} (plain : isPlainName name = true) :
    ∃ c cs, name.toList = c :: cs ∧ isPlainChar c = true ∧ (∀ d ∈ cs, isPlainNameChar d = true) ∧
      (logicalId name).toList =
        c.toUpper :: (cs.flatMap spellSeparator ++ 'L' :: "ambdaFunction".toList) := by
  unfold isPlainName at plain
  cases characters : name.toList with
  | nil => simp [characters] at plain
  | cons c cs =>
    simp only [characters, Bool.and_eq_true, List.all_eq_true] at plain
    obtain ⟨first, rest⟩ := plain
    have part : isPlainNameChar c = true := by simp [isPlainNameChar, first]
    have spelled : spellSeparator c = [c] := by
      rcases initialOf_cases part with ⟨rfl, -⟩ | ⟨rfl, -⟩ | ⟨-, -, spelled⟩
      · exact absurd first (by decide)
      · exact absurd first (by decide)
      · exact spelled
    have suffix : "LambdaFunction".toList = 'L' :: "ambdaFunction".toList := by decide
    refine ⟨c, cs, rfl, first, rest, ?_⟩
    simp only [logicalId, characters, List.flatMap_cons, spelled, List.cons_append,
      List.nil_append, capitalized, upperChar_of_isPlainChar first, String.toList_ofList, suffix]

theorem permissionName_toList (function : String) (principal : Principal) :
    (permissionName function principal).toList =
      function.toList ++ ("PermitInvokeFrom".toList ++ principal.name.toList) := by
  rw [permissionName, String.toList_append, String.toList_append, List.append_assoc]

theorem roleResourceName_toList (role : String) :
    (roleResourceName role).toList =
      'L' :: ("ambda".toList ++ 'A' :: ("ccessRole".toList ++ (fragment role).toList)) := by
  have fixed : "LambdaAccessRole".toList = 'L' :: ("ambda".toList ++ 'A' :: "ccessRole".toList) := by
    decide
  show ("LambdaAccessRole" ++ fragment role).toList = _
  rw [String.toList_append, fixed]
  simp only [List.cons_append, List.append_assoc]

theorem eq_of_permissionName_eq {first second : String} (plain : isPlainName first = true)
    (other : isPlainName second = true) {p q : Principal}
    (same : permissionName (logicalId first) p = permissionName (logicalId second) q) :
    first = second ∧ p.name = q.name := by
  obtain ⟨c, cs, characters, start, parts, id⟩ := logicalId_toList plain
  obtain ⟨d, ds, characters', start', parts', id'⟩ := logicalId_toList other
  have texts := congrArg String.toList same
  rw [permissionName_toList, permissionName_toList, id, id'] at texts
  simp only [List.cons_append, List.append_assoc, List.cons.injEq] at texts
  obtain ⟨initial, spelled⟩ := texts
  obtain rfl := toUpper_injective start start' initial
  obtain ⟨rfl, ends⟩ := spelled_injective parts parts' spelled
  rw [List.append_cancel_left_eq, List.append_cancel_left_eq] at ends
  exact ⟨String.toList_injective (characters.trans characters'.symm), String.toList_injective ends⟩

/-- No role has the name of a permission: after a raised `l`, only lower-case letters that belong to
the function's name can spell the beginning of a role's name, and those do not get past `Lambda`. -/
theorem permissionName_ne_roleResourceName_of_plain {name : String} (plain : isPlainName name = true)
    (principal : Principal) (role : String) :
    permissionName (logicalId name) principal ≠ roleResourceName role := by
  intro same
  obtain ⟨c, cs, -, -, parts, id⟩ := logicalId_toList plain
  have texts := congrArg String.toList same
  rw [permissionName_toList, id, roleResourceName_toList] at texts
  simp only [List.cons_append, List.append_assoc, List.cons.injEq] at texts
  have letters : ∀ letter ∈ "ambda".toList, isPlainChar letter = true :=
    List.all_eq_true.mp (by decide)
  obtain ⟨others, parts', rest⟩ := spelled_starts_with parts letters texts.2
  cases others with
  | nil => simp at rest
  | cons d ds =>
    obtain ⟨tail, spelled⟩ := spellSeparator_eq d
    rw [List.flatMap_cons, spelled, List.cons_append, List.cons_append, List.cons.injEq] at rest
    exact initialOf_ne (parts' d List.mem_cons_self) (by decide) (by decide) (by decide) rest.1

theorem logicalId_injective {first second : String} (plain : isPlainName first = true)
    (other : isPlainName second = true) (same : logicalId first = logicalId second) :
    first = second :=
  (eq_of_permissionName_eq plain other
    (congrArg (permissionName · (.literal "")) same)).1

end AccessGroups.Identifier

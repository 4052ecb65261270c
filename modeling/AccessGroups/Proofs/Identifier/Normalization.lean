import AccessGroups.Proofs.Identifier.Decoding

/-!
Normalized names. A fragment is made in one reading, and all that the reading carries from one character
to the next is whether a word goes on. So a stretch that is dropped as a whole leaves nothing but that,
and the fragment of a fragment differs from it in the first character at most: where a word had begun with
an underscore, that character was not raised the first time.
-/

set_option autoImplicit false

namespace AccessGroups.Identifier

theorem isNameChar_iff (c : Char) :
    isNameChar c = true ↔ (65 ≤ c.toNat ∧ c.toNat ≤ 90) ∨ (97 ≤ c.toNat ∧ c.toNat ≤ 122) ∨
      (48 ≤ c.toNat ∧ c.toNat ≤ 57) := by
  have classes : isNameChar c = ((c.isUpper || c.isLower) || c.isDigit) := rfl
  have upper : c.isUpper = decide (65 ≤ c.val ∧ c.val ≤ 90) := rfl
  have lower : c.isLower = (decide (97 ≤ c.val) && decide (c.val ≤ 122)) := rfl
  have digit : c.isDigit = (decide (48 ≤ c.val) && decide (c.val ≤ 57)) := rfl
  simp [classes, upper, lower, digit, UInt32.le_iff_toNat_le, or_assoc]

theorem isLower_iff (c : Char) : c.isLower = true ↔ 97 ≤ c.toNat ∧ c.toNat ≤ 122 := by
  have lower : c.isLower = (decide (97 ≤ c.val) && decide (c.val ≤ 122)) := rfl
  simp [lower, UInt32.le_iff_toNat_le]

/-- Raising makes no character one of names, and none another. -/
@[simp] theorem isNameChar_toUpper (c : Char) : isNameChar c.toUpper = isNameChar c := by
  rw [Bool.eq_iff_iff, isNameChar_iff, isNameChar_iff, toNat_toUpper]
  split <;> omega

/-- Raising changes the lower-case letters and nothing else. -/
theorem toUpper_eq_self_iff (c : Char) : c.toUpper = c ↔ c.isLower = false := by
  rw [← Bool.not_eq_true, isLower_iff, ← Char.toNat_inj, toNat_toUpper]
  split <;> omega

theorem isLower_toUpper (c : Char) : c.toUpper.isLower = false := by
  rw [← Bool.not_eq_true, isLower_iff, toNat_toUpper]
  split <;> omega

theorem isNameChar_of_isLower {c : Char} (lower : c.isLower = true) : isNameChar c = true := by
  rw [isLower_iff] at lower
  rw [isNameChar_iff]
  omega

theorem isWordChar_of_isNameChar {c : Char} (name : isNameChar c = true) : isWordChar c = true := by
  have alphanumeric : c.isAlphanum = true := name
  simp [isWordChar, alphanumeric]

/-- A character of words that is dropped is the underscore. -/
theorem isWordChar_iff_of_dropped {c : Char} (dropped : isNameChar c = false) :
    isWordChar c = true ↔ c = '_' := by
  have none : c.isAlphanum = false := dropped
  simp [isWordChar, none]

/-- Whether a word goes on after a text, where `inWord` tells whether one goes on before it. -/
def endsInWord (inWord : Bool) (cs : List Char) : Bool := (cs.getLast?.map isWordChar).getD inWord

@[simp] theorem endsInWord_nil (inWord : Bool) : endsInWord inWord [] = inWord := rfl

@[simp] theorem endsInWord_cons (inWord : Bool) (c : Char) (cs : List Char) :
    endsInWord inWord (c :: cs) = endsInWord (isWordChar c) cs := by
  cases last : cs.getLast? <;> simp [endsInWord, List.getLast?_cons, last]

theorem titledFrom_cons (inWord : Bool) (c : Char) (cs : List Char) :
    titledFrom inWord (c :: cs) =
      (if isWordChar c && !inWord then c.toUpper else c) :: titledFrom (isWordChar c) cs := by
  rw [titledFrom]
  cases word : isWordChar c <;> cases inWord <;> simp

/-- Of what was read before, a text only needs to know whether a word goes on. -/
theorem titledFrom_append (inWord : Bool) (before after : List Char) :
    titledFrom inWord (before ++ after) =
      titledFrom inWord before ++ titledFrom (endsInWord inWord before) after := by
  induction before generalizing inWord with
  | nil => rfl
  | cons c cs ih =>
    rw [List.cons_append, titledFrom_cons, titledFrom_cons, ih, endsInWord_cons, List.cons_append]

theorem filter_titledFrom_of_dropped (inWord : Bool) {cs : List Char}
    (dropped : ∀ c ∈ cs, isNameChar c = false) :
    (titledFrom inWord cs).filter isNameChar = [] := by
  induction cs generalizing inWord with
  | nil => rfl
  | cons c cs ih =>
    have first : isNameChar (if isWordChar c && !inWord then c.toUpper else c) = false := by
      split
      · rw [isNameChar_toUpper]
        exact dropped c List.mem_cons_self
      · exact dropped c List.mem_cons_self
    rw [titledFrom_cons, List.filter_cons_of_neg (by rw [first]; exact Bool.false_ne_true)]
    exact ih _ fun d member => dropped d (List.mem_cons_of_mem _ member)

/-- Inside a word, letters and digits stay as they are. -/
theorem titledFrom_of_names {cs : List Char} (names : ∀ c ∈ cs, isNameChar c = true) :
    titledFrom true cs = cs := by
  induction cs with
  | nil => rfl
  | cons c cs ih =>
    have word := isWordChar_of_isNameChar (names c List.mem_cons_self)
    rw [titledFrom_cons, word, ih fun d member => names d (List.mem_cons_of_mem _ member)]
    rfl

theorem isNameChar_of_mem_fragmentChars {cs : List Char} {c : Char}
    (member : c ∈ fragmentChars cs) : isNameChar c = true :=
  (List.mem_filter.mp member).2

/-- Of letters and digits alone the fragment raises the first. -/
theorem fragmentChars_of_names {c : Char} {cs : List Char}
    (names : ∀ d ∈ c :: cs, isNameChar d = true) : fragmentChars (c :: cs) = c.toUpper :: cs := by
  have first := names c List.mem_cons_self
  have rest : ∀ d ∈ cs, isNameChar d = true := fun d member => names d (List.mem_cons_of_mem _ member)
  have titled : titledFrom false (c :: cs) = c.toUpper :: cs := by
    rw [titledFrom_cons, isWordChar_of_isNameChar first, titledFrom_of_names rest]
    rfl
  rw [fragmentChars, titled, List.filter_cons_of_pos (by rw [isNameChar_toUpper, first]),
    List.filter_eq_self.mpr rest]

/-- The fragment of a fragment is the same just when the first character of the latter is raised. -/
theorem fragmentChars_fixed_iff (cs : List Char) :
    fragmentChars (fragmentChars cs) = fragmentChars cs ↔
      ∀ c rest, fragmentChars cs = c :: rest → c.isLower = false := by
  cases kept : fragmentChars cs with
  | nil => simp [fragmentChars, titledFrom]
  | cons c rest =>
    have names : ∀ d ∈ c :: rest, isNameChar d = true := by
      intro d member
      rw [← kept] at member
      exact isNameChar_of_mem_fragmentChars member
    rw [fragmentChars_of_names names, List.cons.injEq, toUpper_eq_self_iff]
    constructor
    · rintro ⟨raised, -⟩ d others same
      rwa [← (List.cons.inj same).1]
    · intro raised
      exact ⟨raised c rest rfl, rfl⟩

/-- The fragment starts with the first letter or digit, raised unless a word goes on there. -/
theorem fragmentChars_of_first {before : List Char} {c : Char} (after : List Char)
    (dropped : ∀ d ∈ before, isNameChar d = false) (first : isNameChar c = true) :
    ∃ rest, fragmentChars (before ++ c :: after) =
      (if endsInWord false before then c else c.toUpper) :: rest := by
  rw [fragmentChars, titledFrom_append, List.filter_append, filter_titledFrom_of_dropped _ dropped,
    List.nil_append, titledFrom_cons, isWordChar_of_isNameChar first]
  cases endsInWord false before with
  | true => exact ⟨_, List.filter_cons_of_pos first⟩
  | false => exact ⟨_, List.filter_cons_of_pos (by simpa using first)⟩

/-- After a stretch that is dropped a word goes on just when the stretch ends in an underscore. -/
theorem endsInWord_of_dropped {cs : List Char} (dropped : ∀ c ∈ cs, isNameChar c = false) :
    endsInWord false cs = true ↔ cs.getLast? = some '_' := by
  unfold endsInWord
  cases last : cs.getLast? with
  | none => simp
  | some c => simpa using isWordChar_iff_of_dropped (dropped c (List.mem_of_getLast? last))

/-- A text that holds a letter or a digit has a first one. -/
theorem dropped_or_first (cs : List Char) :
    (∀ c ∈ cs, isNameChar c = false) ∨
      ∃ before c after, cs = before ++ c :: after ∧ (∀ d ∈ before, isNameChar d = false) ∧
        isNameChar c = true := by
  cases found : cs.find? isNameChar with
  | none =>
    exact Or.inl (by simpa using found)
  | some c =>
    obtain ⟨name, before, after, rfl, dropped⟩ := List.find?_eq_some_iff_append.mp found
    exact Or.inr ⟨before, c, after, rfl, by simpa using dropped, name⟩

/-- The first letter or digit of the text is a lower-case letter right after an underscore. -/
def OpensUnraised (s : String) : Prop :=
  ∃ before c after, s.toList = before ++ c :: after ∧ (∀ d ∈ before, isNameChar d = false) ∧
    c.isLower = true ∧ before.getLast? = some '_'

/-- A fragment starts with a lower-case letter just when its text has one after an underscore there. -/
theorem unraised_iff (s : String) :
    (∃ c rest, fragmentChars s.toList = c :: rest ∧ c.isLower = true) ↔ OpensUnraised s := by
  constructor
  · rintro ⟨c, rest, kept, lower⟩
    rcases dropped_or_first s.toList with dropped | ⟨before, d, after, split, dropped, first⟩
    · rw [fragmentChars, filter_titledFrom_of_dropped _ dropped] at kept
      cases kept
    · obtain ⟨others, starts⟩ := fragmentChars_of_first after dropped first
      rw [split, starts] at kept
      have same := (List.cons.inj kept).1
      by_cases underscore : endsInWord false before = true
      · rw [if_pos underscore] at same
        exact ⟨before, d, after, split, dropped, same ▸ lower,
          (endsInWord_of_dropped dropped).mp underscore⟩
      · -- A character that is raised is no lower-case letter.
        rw [if_neg underscore] at same
        rw [← same, isLower_toUpper] at lower
        cases lower
  · rintro ⟨before, c, after, split, dropped, lower, underscore⟩
    obtain ⟨rest, starts⟩ :=
      fragmentChars_of_first after dropped (isNameChar_of_isLower lower)
    rw [if_pos ((endsInWord_of_dropped dropped).mpr underscore)] at starts
    exact ⟨c, rest, by rw [split, starts], lower⟩

theorem fragment_eq_iff (s t : String) :
    fragment s = fragment t ↔ fragmentChars s.toList = fragmentChars t.toList := by
  rw [← String.toList_inj, fragment, fragment, String.toList_ofList, String.toList_ofList]

/-- The fragment of a fragment is the fragment itself, except where the first letter or digit of the text
is a lower-case letter right after an underscore. In every case a third time changes nothing. -/
theorem fragment_stable_iff (s : String) :
    (fragment (fragment s) = fragment s ↔ ¬ OpensUnraised s) ∧
      fragment (fragment (fragment s)) = fragment (fragment s) := by
  have chars (t : String) : (fragment t).toList = fragmentChars t.toList := String.toList_ofList
  have stable (t : String) : fragment (fragment t) = fragment t ↔
      ∀ c rest, fragmentChars t.toList = c :: rest → c.isLower = false := by
    rw [fragment_eq_iff, chars, fragmentChars_fixed_iff]
  refine ⟨?_, (stable (fragment s)).mpr ?_⟩
  · rw [stable, ← unraised_iff]
    simp
  · intro c rest twice
    rw [chars] at twice
    cases kept : fragmentChars s.toList with
    | nil =>
      rw [kept] at twice
      cases twice
    | cons d others =>
      have names : ∀ e ∈ d :: others, isNameChar e = true := by
        intro e member
        rw [← kept] at member
        exact isNameChar_of_mem_fragmentChars member
      rw [kept, fragmentChars_of_names names] at twice
      rw [← (List.cons.inj twice).1]
      exact isLower_toUpper d

example : fragment "__role" = "role" ∧ fragment (fragment "__role") = "Role" := by decide

end AccessGroups.Identifier

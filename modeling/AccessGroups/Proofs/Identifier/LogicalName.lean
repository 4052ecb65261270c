import AccessGroups.Proofs.Identifier.Normalization

/-!
Names that a template allows. A logical name holds letters and digits only, and at least one. Fragments hold
nothing else, whatever text they are made from, so the name of a role is always such a name, and that of a
permission is one where its function's id is. The default scheme gives such ids to functions whose names hold
letters, digits, dashes and underscores, since it spells out the latter two.
-/

set_option autoImplicit false

namespace AccessGroups.Identifier

/-- The names of resources that a template allows: not empty, and of ASCII letters and digits. -/
def isLogicalName (name : String) : Bool :=
  !name.toList.isEmpty && name.toList.all Char.isAlphanum

/-- The characters that the names of functions hold: letters, digits and the two separators. -/
def isFunctionNameChar (c : Char) : Bool := c.isAlphanum || c == '-' || c == '_'

/-- What follows a logical name makes another one with it just when it holds letters and digits only. -/
theorem isLogicalName_append {front back : String} (named : isLogicalName front = true) :
    isLogicalName (front ++ back) = back.toList.all Char.isAlphanum := by
  obtain ⟨nonempty, letters⟩ := Bool.and_eq_true_iff.mp named
  rw [isLogicalName, String.toList_append, List.all_append, letters]
  cases characters : front.toList with
  | nil => simp [characters] at nonempty
  | cons c cs => simp

theorem all_fragment (s : String) : (fragment s).toList.all Char.isAlphanum = true := by
  rw [fragment, String.toList_ofList, List.all_eq_true]
  exact fun c member => isNameChar_of_mem_fragmentChars member

theorem all_principalName (principal : Principal) :
    principal.name.toList.all Char.isAlphanum = true := by
  cases principal with
  | literal value => exact all_fragment value
  | exported function argument value => exact all_fragment argument

/-- The name of a permission is a logical name just when its function's id holds letters and digits only. -/
theorem isLogicalName_permissionName (function : String) (principal : Principal) :
    isLogicalName (permissionName function principal) = function.toList.all Char.isAlphanum := by
  simp [isLogicalName, permissionName_toList, all_principalName]

theorem isLogicalName_roleResourceName (role : String) :
    isLogicalName (roleResourceName role) = true := by
  show isLogicalName ("LambdaAccessRole" ++ fragment role) = true
  rw [isLogicalName_append (by decide), all_fragment]

/-- The default scheme spells each character of a function's name with letters and digits. -/
theorem all_spellSeparator {c : Char} (part : isFunctionNameChar c = true) :
    (spellSeparator c).all Char.isAlphanum = true := by
  unfold spellSeparator
  by_cases dash : c = '-'
  · simp [dash]
  · by_cases underscore : c = '_'
    · simp [underscore]
    · simpa [dash, underscore, isFunctionNameChar] using part

theorem upperChar_of_isNameChar {c : Char} (name : isNameChar c = true) :
    Text.upperChar c = [c.toUpper] := by
  rw [isNameChar_iff] at name
  exact upperChar_of_ascii (by omega)

theorem all_capitalized {cs : List Char} (names : cs.all Char.isAlphanum = true) :
    (capitalized cs).all Char.isAlphanum = true := by
  cases cs with
  | nil => rfl
  | cons c cs =>
    obtain ⟨first, rest⟩ : isNameChar c = true ∧ cs.all Char.isAlphanum = true := by
      simpa [isNameChar] using names
    have raised : c.toUpper.isAlphanum = true := by
      rw [← isNameChar, isNameChar_toUpper, first]
    simp [capitalized, upperChar_of_isNameChar first, raised, rest]

/-- The default id of a function whose name holds letters, digits and separators is a logical name. -/
theorem isLogicalName_logicalId {name : String} (parts : name.toList.all isFunctionNameChar = true) :
    isLogicalName (logicalId name) = true := by
  have spelled : (name.toList.flatMap spellSeparator).all Char.isAlphanum = true := by
    rw [List.all_flatMap, List.all_eq_true]
    exact fun c member => all_spellSeparator (List.all_eq_true.mp parts c member)
  simp [isLogicalName, logicalId, all_capitalized spelled]

example : logicalId "my-function_1" = "MyDashfunctionUnderscore1LambdaFunction" := by decide

end AccessGroups.Identifier

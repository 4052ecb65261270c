/-!
Whether a text occurs inside another, or one run of items inside another.
-/

set_option autoImplicit false

namespace AccessGroups.Text

/-- True when `part` stands somewhere in the list; the empty part stands everywhere. -/
def occursIn {α : Type} [BEq α] (part : List α) : List α → Bool
  | [] => part.isEmpty
  | c :: cs => part.isPrefixOf (c :: cs) || occursIn part cs

end AccessGroups.Text

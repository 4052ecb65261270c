/-!
Misuse of a dynamic value: an operation was asked of a value that does not support it. These faults
say nothing about access groups, and nothing but their kind is reported.
-/

set_option autoImplicit false

namespace AccessGroups

/-- Why an operation on a dynamic value has no result. -/
inductive Misuse where
  /-- An operand is of a kind that the operation does not take. -/
  | operand
  /-- A named member was asked of a kind of value that has none of that name. -/
  | member
  /-- A key is not present. -/
  | key
  /-- A position lies outside of a list. -/
  | position
  /-- A template text names a conversion that does not exist or is cut short. -/
  | template
  /-- An operand is of the right kind, but what it holds means nothing here. -/
  | content
  /-- A number is larger than what it is used for can hold. -/
  | overflow
  /-- A time lies outside of the calendar. -/
  | calendar
  /-- A definition refers to itself. -/
  | cycle
  deriving DecidableEq, Inhabited

end AccessGroups

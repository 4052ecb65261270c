import AccessGroups.Text.UpperCase
import AccessGroups.Value.Basic

/-!
Logical ids of functions. The default id spells out dashes and underscores, raises the first
character, and ends in a fixed suffix: `my-function_1` gives `MyDashfunctionUnderscore1LambdaFunction`.
-/

set_option autoImplicit false

namespace AccessGroups.Identifier

/-- Spells out the two separators that a function name may hold. -/
def spellSeparator (c : Char) : List Char :=
  if c == '-' then "Dash".toList
  else if c == '_' then "Underscore".toList
  else [c]

/-- Raises the first character of a text. -/
def capitalized : List Char → List Char
  | [] => []
  | c :: cs => Text.upperChar c ++ cs

def logicalId (functionName : String) : String :=
  String.ofList
    (capitalized (functionName.toList.flatMap spellSeparator) ++ "LambdaFunction".toList)

/-- How a function's name becomes its logical id; a host may bring its own way. -/
abbrev IdScheme := Value → Except Misuse Value

/-- The default scheme names functions whose names are texts. -/
def defaultScheme : IdScheme
  | .text s => .ok (.text (logicalId s))
  | .bytes _ => .error .operand
  | _ => .error .member

end AccessGroups.Identifier

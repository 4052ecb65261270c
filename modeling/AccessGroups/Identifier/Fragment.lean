import AccessGroups.Value.Basic

/-!
Identifier fragments: the part of a text that may stand in a logical name. Each word's first letter
goes to upper case and everything but ASCII letters and digits is dropped. Underscores belong to words,
so they keep the letter after them as it is, and are dropped all the same.
-/

set_option autoImplicit false

namespace AccessGroups.Identifier

/-- ASCII letters and digits, the characters of logical names. -/
def isNameChar (c : Char) : Bool := c.isAlphanum

/-- The characters that make up words: those of names and the underscore. -/
def isWordChar (c : Char) : Bool := c.isAlphanum || c == '_'

/-- Raises each word character that follows none; `inWord` tells whether the character before did. -/
def titledFrom (inWord : Bool) : List Char → List Char
  | [] => []
  | c :: cs =>
    if isWordChar c then (if inWord then c else c.toUpper) :: titledFrom true cs
    else c :: titledFrom false cs

def fragmentChars (cs : List Char) : List Char := (titledFrom false cs).filter isNameChar

/-- The fragment of a text: `arn:aws:iam` gives `ArnAwsIam`. -/
def fragment (s : String) : String := String.ofList (fragmentChars s.toList)

/-- Only texts have fragments. -/
def fragmentOf : Value → Except Misuse String
  | .text s => .ok (fragment s)
  | _ => .error .operand

end AccessGroups.Identifier

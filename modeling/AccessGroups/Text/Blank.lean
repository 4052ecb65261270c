/-!
Blank characters, the words between them, and the single-spaced form of a text.
-/

set_option autoImplicit false

namespace AccessGroups.Text

/-- The characters with the Unicode property White_Space. -/
def isSpacing (c : Char) : Bool :=
  let n := c.toNat
  decide (0x09 ≤ n ∧ n ≤ 0x0D) || n == 0x20 || n == 0x85 || n == 0xA0 || n == 0x1680 ||
    decide (0x2000 ≤ n ∧ n ≤ 0x200A) || n == 0x2028 || n == 0x2029 || n == 0x202F || n == 0x205F ||
    n == 0x3000

/-- Blank characters separate words: the spacing characters and the four information separators. -/
def isBlank (c : Char) : Bool := isSpacing c || decide (0x1C ≤ c.toNat ∧ c.toNat ≤ 0x1F)

/-- The stretches between blanks, empty ones included. -/
def pieces : List Char → List (List Char)
  | [] => [[]]
  | c :: cs =>
    if isBlank c then [] :: pieces cs
    else
      match pieces cs with
      | [] => [[c]]
      | piece :: rest => (c :: piece) :: rest

/-- The longest stretches without a blank, in order. -/
def words (cs : List Char) : List (List Char) := (pieces cs).filter (!·.isEmpty)

/-- The words of a text with one space between neighbours and none at the ends. -/
def singleSpaced (cs : List Char) : List Char := [' '].intercalate (words cs)

end AccessGroups.Text

import AccessGroups.Decimal.Shortest
import AccessGroups.Text.Quoted
import AccessGroups.Value.Basic

/-!
The text of a value: its literal, as it would be written down, and its display, which shows a text
without quotes and every other value by its literal.
-/

set_option autoImplicit false

namespace AccessGroups.Value

mutual

/-- The literal of a value. A tuple of one item keeps a comma after it. Whole numbers have a literal at any
length: that a runtime may be set to write no more than 4300 digits is left out. -/
def literalChars : Value → List Char
  | .null => "None".toList
  | .bool b => (if b then "True" else "False").toList
  | .int n => (toString n).toList
  | .real x => x.shortest.toList
  | .text s => (Text.quoted s).toList
  | .bytes bs => (Text.quotedBytes bs).toList
  | .list items => '[' :: literalItems items ++ [']']
  | .tuple [v] => '(' :: literalChars v ++ [',', ')']
  | .tuple items => '(' :: literalItems items ++ [')']
  | .map entries => '\x7b' :: literalEntries entries ++ ['\x7d']

/-- Literals with a comma and a space between neighbours. -/
def literalItems : List Value → List Char
  | [] => []
  | [v] => literalChars v
  | v :: vs => literalChars v ++ ',' :: ' ' :: literalItems vs

def literalEntries : List (Value × Value) → List Char
  | [] => []
  | [(k, v)] => literalChars k ++ ':' :: ' ' :: literalChars v
  | (k, v) :: es => literalChars k ++ ':' :: ' ' :: literalChars v ++ ',' :: ' ' :: literalEntries es

end

def literal (v : Value) : String := String.ofList v.literalChars

/-- How a value reads inside a message or a name. -/
def display : Value → String
  | .text s => s
  | v => v.literal

@[simp] theorem display_text (s : String) : display (.text s) = s := rfl

end AccessGroups.Value

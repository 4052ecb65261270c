import AccessGroups.Value.Display

/-!
Issues: what does not match a schema, and where. A place is a key, an index, or the label of one of
several forms that a value might have had.
-/

set_option autoImplicit false

namespace AccessGroups

/-- How a value fails to be what a schema asks for. -/
inductive Mismatch where
  | notText
  | textEncoding
  | notInteger
  | integerText
  | integerSize
  | integerFraction
  | integerInfinite
  | below (least : Int)
  | above (greatest : Int)
  | notBoolean
  | booleanText
  | notMapping
  | notList
  | notRecord (record : String)
  | empty
  | missing
  | unexpected
  | nonTextKey
  /-- A rule of the schema's own. -/
  | rule (sentence : String)
  deriving DecidableEq

namespace Mismatch

/-- The stable name of a mismatch. -/
def kind : Mismatch → String
  | notText => "string_type"
  | textEncoding => "string_unicode"
  | notInteger => "int_type"
  | integerText => "int_parsing"
  | integerSize => "int_parsing_size"
  | integerFraction => "int_from_float"
  | integerInfinite => "finite_number"
  | below _ => "greater_than_equal"
  | above _ => "less_than_equal"
  | notBoolean => "bool_type"
  | booleanText => "bool_parsing"
  | notMapping => "dict_type"
  | notList => "list_type"
  | notRecord _ => "model_type"
  | empty => "too_short"
  | missing => "missing"
  | unexpected => "extra_forbidden"
  | nonTextKey => "invalid_key"
  | rule _ => "value_error"

def message : Mismatch → String
  | notText => "Input should be a valid string"
  | textEncoding => "Input should be a valid string, unable to parse raw data as a unicode string"
  | notInteger => "Input should be a valid integer"
  | integerText => "Input should be a valid integer, unable to parse string as an integer"
  | integerSize => "Unable to parse input string as an integer, exceeded maximum size"
  | integerFraction => "Input should be a valid integer, got a number with a fractional part"
  | integerInfinite => "Input should be a finite number"
  | below least => "Input should be greater than or equal to " ++ toString least
  | above greatest => "Input should be less than or equal to " ++ toString greatest
  | notBoolean => "Input should be a valid boolean"
  | booleanText => "Input should be a valid boolean, unable to interpret input"
  | notMapping => "Input should be a valid dictionary"
  | notList => "Input should be a valid list"
  | notRecord record => "Input should be a valid dictionary or instance of " ++ record
  | empty => "Dictionary should have at least 1 item after validation, not 0"
  | missing => "Field required"
  | unexpected => "Extra inputs are not permitted"
  | nonTextKey => "Keys should be strings"
  | rule sentence => "Value error, " ++ sentence

end Mismatch

/-- A mismatch and the way to it from the outermost value. -/
structure Issue where
  path : List Value
  mismatch : Mismatch

namespace Issue

def under (place : Value) (i : Issue) : Issue := { i with path := place :: i.path }

/-- Whether an integer fits into 64 bits with a sign. -/
def fitsWord (n : Int) : Bool := decide (-(Decimal.twoTo 63 : Int) ≤ n ∧ n < Decimal.twoTo 63)

/-- How a key is shown in a path: texts and integers that fit into a word as they are, and any other
key by its literal. -/
def placeOfKey : Value → Value
  | .text s => .text s
  | .int n => if fitsWord n then .int n else .text (Value.literal (.int n))
  | .bool b => .int (if b then 1 else 0)
  | v => .text v.literal

end Issue

end AccessGroups

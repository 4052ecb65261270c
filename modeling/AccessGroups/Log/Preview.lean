import AccessGroups.Json.Writer
import AccessGroups.Text.Blank

/-!
Previews: the text of a value on one line and of bounded length, for messages. Mappings and lists are
shown as JSON where they have a JSON text, other values by their display. What exceeds the limit is
cut, and an ellipsis takes the place of the last character kept.
-/

set_option autoImplicit false

namespace AccessGroups.Log

/-- The text that a preview shortens. -/
def previewSource (v : Value) : List Char :=
  match v with
  | .map _ => (Json.chars? v).getD v.literalChars
  | .list _ => (Json.chars? v).getD v.literalChars
  | _ => v.display.toList

/-- How many characters of a text of the given length are kept before the ellipsis. A limit below one
counts from the end of the text. -/
def keptLength (length : Nat) (limit : Int) : Nat :=
  if 1 ≤ limit then (limit - 1).toNat else (length + (limit - 1)).toNat

/-- Cuts a text that is longer than the limit. -/
def cut (cs : List Char) (limit : Int) : List Char :=
  if limit < cs.length then cs.take (keptLength cs.length limit) ++ ['…'] else cs

/-- The preview of a value, as characters; `null` has an empty one under every limit. -/
def previewChars (v : Value) (limit : Int) : List Char :=
  match v with
  | .null => []
  | v => cut (Text.singleSpaced (previewSource v)) limit

def defaultLimit : Int := 240

def preview (v : Value) : String := String.ofList (previewChars v defaultLimit)

/-- The preview under a limit that is itself a value. Any number may be compared with a length, but
only a whole one may cut. -/
def previewWithin (v limit : Value) : Except Misuse String :=
  match v, limit with
  | .null, _ => .ok ""
  | v, .int n => .ok (String.ofList (previewChars v n))
  | v, .bool b => .ok (String.ofList (previewChars v (if b then 1 else 0)))
  | v, .real x =>
    let cs := Text.singleSpaced (previewSource v)
    match x.compareInt? cs.length with
    | some .lt => .error .operand
    | _ => .ok (String.ofList cs)
  | _, _ => .error .operand

end AccessGroups.Log

import AccessGroups.Fault
import AccessGroups.Identifier.Fragment
import AccessGroups.Text.Substring

/-!
Principals: who a group grants its rights to. A principal is an account or a resource name given as a
plain text or number, or a reference to an intrinsic function of the template, which is emitted as it
is given and contributes only its argument's text to logical names.
-/

set_option autoImplicit false

namespace AccessGroups

inductive Principal where
  /-- An account number or a resource name. -/
  | literal (value : String)
  /-- A mapping whose first intrinsic key is `function`; `argument` is the text of what it holds. -/
  | exported (function argument : String) (value : Entries Value)

namespace Principal

/-- What marks the key of an intrinsic function. -/
def intrinsicMarker : List Char := ['F', 'n', ':', ':']

def isIntrinsic (key : String) : Bool := Text.occursIn intrinsicMarker key.toList

/-- The first text key that names an intrinsic function, with its argument. -/
def intrinsic? : Entries Value → Option (String × Value)
  | [] => none
  | (.text key, argument) :: rest => if isIntrinsic key then some (key, argument) else intrinsic? rest
  | _ :: rest => intrinsic? rest

mutual

/-- The text of an argument as the template engine renders it: items are joined by commas, `null`
items are empty, and a mapping renders as a fixed text whatever it holds. -/
def argumentChars : Value → List Char
  | .map _ => "[object Object]".toList
  | .list items => argumentItems items
  | .tuple items => argumentItems items
  | .bool b => (if b then "true" else "false").toList
  | v => v.display.toList

def argumentItems : List Value → List Char
  | [] => []
  | [v] => if v.isNull then [] else argumentChars v
  | v :: vs => (if v.isNull then [] else argumentChars v) ++ ',' :: argumentItems vs

end

/-- Reads a principal: a text, a number that is not a truth value, or a mapping with an intrinsic
key. -/
def ofValue : Value → Except ConfigFault Principal
  | .text s => .ok (.literal s)
  | .int n => .ok (.literal (Value.display (.int n)))
  | .real x => .ok (.literal (Value.display (.real x)))
  | .map entries =>
    match intrinsic? entries with
    | some (function, argument) =>
      .ok (.exported function (String.ofList (argumentChars argument)) entries)
    | none => .error (.badPrincipal (.map entries))
  | v => .error (.badPrincipal v)

/-- What the template holds for a principal. -/
def emitted : Principal → Value
  | .literal value => .text value
  | .exported _ _ value => .map value

/-- The fragment of a principal in logical names. -/
def name : Principal → String
  | .literal value => Identifier.fragment value
  | .exported _ argument _ => Identifier.fragment argument

end Principal

end AccessGroups

import AccessGroups.Value.Display

/-!
Values as JSON text, on one line: a comma and a colon are followed by a space, characters beyond ASCII
stand for themselves, tuples are arrays, and a byte string is the text of its literal. A mapping whose
key is neither a text nor a number nor a truth value nor `null` has no JSON text.
-/

set_option autoImplicit false

namespace AccessGroups.Json

def escapeChar (c : Char) : List Char :=
  if c == '"' then ['\\', '"']
  else if c == '\\' then ['\\', '\\']
  else if c == '\n' then ['\\', 'n']
  else if c == '\r' then ['\\', 'r']
  else if c == '\t' then ['\\', 't']
  else if c == '\x0c' then ['\\', 'f']
  else if c == '\x08' then ['\\', 'b']
  else if c.toNat < 0x20 then '\\' :: 'u' :: Text.hexText 4 c.toNat
  else [c]

def stringChars (cs : List Char) : List Char := '"' :: cs.flatMap escapeChar ++ ['"']

/-- A floating-point number; the values that JSON lacks are spelled out. -/
def realText (x : Decimal.Binary64) : String :=
  match x.reading with
  | .nan => "NaN"
  | .infinite false => "Infinity"
  | .infinite true => "-Infinity"
  | _ => x.shortest

def keyText? : Value → Option String
  | .text s => some s
  | .int n => some (toString n)
  | .real x => some (realText x)
  | .bool b => some (if b then "true" else "false")
  | .null => some "null"
  | _ => none

mutual

def chars? : Value → Option (List Char)
  | .null => some "null".toList
  | .bool b => some (if b then "true" else "false").toList
  | .int n => some (toString n).toList
  | .real x => some (realText x).toList
  | .text s => some (stringChars s.toList)
  | .bytes bs => some (stringChars (Text.quotedBytes bs).toList)
  | .list items => (itemChars? items).map fun body => '[' :: body ++ [']']
  | .tuple items => (itemChars? items).map fun body => '[' :: body ++ [']']
  | .map entries => (entryChars? entries).map fun body => '\x7b' :: body ++ ['\x7d']

def itemChars? : List Value → Option (List Char)
  | [] => some []
  | [v] => chars? v
  | v :: vs => do
    let first ← chars? v
    let rest ← itemChars? vs
    return first ++ ',' :: ' ' :: rest

def entryChars? : List (Value × Value) → Option (List Char)
  | [] => some []
  | [(k, v)] => do
    let key ← keyText? k
    let value ← chars? v
    return stringChars key.toList ++ ':' :: ' ' :: value
  | (k, v) :: es => do
    let key ← keyText? k
    let value ← chars? v
    let rest ← entryChars? es
    return stringChars key.toList ++ ':' :: ' ' :: value ++ ',' :: ' ' :: rest

end

/-- The JSON text of a value, if each of its keys has one. -/
def write? (v : Value) : Option String := (chars? v).map String.ofList

end AccessGroups.Json

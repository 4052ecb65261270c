import AccessGroups.Text.Shown

/-!
Quoted forms: a text or a byte string between quotes, on one line, with every character that is not
shown as itself written as an escape. The quotes are single, and double where that saves escaping.
-/

set_option autoImplicit false

namespace AccessGroups.Text

/-- The lower-case hexadecimal digit of a number below sixteen. -/
def hexDigit (n : Nat) : Char :=
  if n < 10 then Char.ofNat (0x30 + n) else Char.ofNat (0x57 + n)

/-- The last `width` hexadecimal digits of a number. -/
def hexText : (width : Nat) → Nat → List Char
  | 0, _ => []
  | width + 1, n => hexText width (n / 16) ++ [hexDigit (n % 16)]

/-- Double quotes are used for what contains a single quote and no double one. -/
def quoteFor (hasSingle hasDouble : Bool) : Char := if hasSingle && !hasDouble then '"' else '\''

/-- The escape that gives the code of a character. -/
def codeEscape (c : Char) : List Char :=
  if c.toNat < 0x100 then '\\' :: 'x' :: hexText 2 c.toNat
  else if c.toNat < 0x10000 then '\\' :: 'u' :: hexText 4 c.toNat
  else '\\' :: 'U' :: hexText 8 c.toNat

/-- A character inside the given quotes. -/
def escapeChar (quote c : Char) : List Char :=
  if c == quote || c == '\\' then ['\\', c]
  else if c == '\n' then ['\\', 'n']
  else if c == '\r' then ['\\', 'r']
  else if c == '\t' then ['\\', 't']
  else if isShown c then [c]
  else codeEscape c

/-- A character of a text in which there are to be ASCII characters only. -/
def asciiChar (c : Char) : List Char := if c.toNat < 0x80 then [c] else codeEscape c

def quoted (s : String) : String :=
  let quote := quoteFor (s.toList.contains '\'') (s.toList.contains '"')
  String.ofList (quote :: s.toList.flatMap (escapeChar quote) ++ [quote])

/-- A byte inside the given quotes: an ASCII character, or two hexadecimal digits. -/
def escapeByte (quote : Char) (b : UInt8) : List Char :=
  let c := Char.ofNat b.toNat
  if b.toNat < 0x80 then escapeChar quote c else '\\' :: 'x' :: hexText 2 b.toNat

/-- A byte string between quotes, marked with a leading `b`. -/
def quotedBytes (bs : List UInt8) : String :=
  let quote := quoteFor (bs.contains 0x27) (bs.contains 0x22)
  String.ofList ('b' :: quote :: bs.flatMap (escapeByte quote) ++ [quote])

end AccessGroups.Text

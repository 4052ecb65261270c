import AccessGroups.Schema.Container

/-!
The principals of a policy or a role as the schema reads them: one principal or a list of them, each a
text, a whole number or a mapping from texts.
-/

set_option autoImplicit false

namespace AccessGroups.Schema

inductive PrincipalForm where
  | text (s : String)
  | number (n : Int)
  | reference (entries : Entries Value)

namespace PrincipalForm

/-- The forms of a principal and their labels. -/
def check (v : Value) : Checked PrincipalForm :=
  .firstOf
    [("str", (checkText v).map text),
      ("int", (checkInteger v).map number),
      ("dict[str,any]", (checkMapping .ok v).map reference)]

def toValue : PrincipalForm → Value
  | text s => .text s
  | number n => .int n
  | reference entries => .map entries

end PrincipalForm

inductive Principals where
  | one (principal : PrincipalForm)
  | many (principals : List PrincipalForm)

namespace Principals

/-- A single principal and a list are forms of the same rank, so their labels stand side by side. -/
def check (v : Value) : Checked Principals :=
  .firstOf
    [("str", (checkText v).map fun s => one (.text s)),
      ("int", (checkInteger v).map fun n => one (.number n)),
      ("dict[str,any]", (checkMapping .ok v).map fun entries => one (.reference entries)),
      ("list[union[str,int,dict[str,any]]]", (checkList PrincipalForm.check v).map many)]

def toValue : Principals → Value
  | one principal => principal.toValue
  | many principals => .list (principals.map PrincipalForm.toValue)

end Principals

end AccessGroups.Schema

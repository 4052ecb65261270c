import AccessGroups.Schema.Issue

/-!
Checks that report every issue they find. Independent checks are made side by side and their issues
are put together in order; of several forms the first that fits is taken, and if none fits the issues of
all of them are reported, each under the label of its form.
-/

set_option autoImplicit false

namespace AccessGroups

/-- The value read, or everything that is wrong with it. -/
abbrev Checked (α : Type) := Except (List Issue) α

namespace Checked

variable {α β : Type}

def fail (mismatch : Mismatch) : Checked α := .error [⟨[], mismatch⟩]

def under (place : Value) : Checked α → Checked α
  | .ok a => .ok a
  | .error issues => .error (issues.map (Issue.under place))

/-- Makes two checks and reports the issues of both. -/
def both : Checked α → Checked β → Checked (α × β)
  | .ok a, .ok b => .ok (a, b)
  | .ok _, .error issues => .error issues
  | .error issues, .ok _ => .error issues
  | .error first, .error second => .error (first ++ second)

/-- Makes all checks of a list and reports the issues of all. -/
def all : List (Checked α) → Checked (List α)
  | [] => .ok []
  | check :: rest => (both check (all rest)).map fun (a, as) => a :: as

def firstOf : List (String × Checked α) → Checked α
  | [] => .error []
  | (label, check) :: rest =>
    match check with
    | .ok a => .ok a
    | .error issues =>
      match firstOf rest with
      | .ok a => .ok a
      | .error more => .error (issues.map (Issue.under (.text label)) ++ more)

end Checked

end AccessGroups

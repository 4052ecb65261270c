import AccessGroups.Value.Entries

/-!
References inside a document. A mapping whose `$ref` names a definition stands for that definition; what
else the mapping holds goes over the definition's own entries. Inlining replaces every reference and
drops the definitions, so that what remains can be placed inside another document.
-/

set_option autoImplicit false

namespace AccessGroups.Schema

/-- What every reference to a definition starts with. -/
def referenceStart : String := "#/$defs/"

def referenceKey : String := "$ref"

def definitionsKey : String := "$defs"

def referenceTo (name : String) : Value := .object [(referenceKey, .text (referenceStart ++ name))]

def referencedName? (s : String) : Option String :=
  if referenceStart.toList.isPrefixOf s.toList then
    some (String.ofList (s.toList.drop referenceStart.length))
  else none

def reference? (es : Entries Value) : Option String :=
  match Entries.get? es (.text referenceKey) with
  | some (.text s) => referencedName? s
  | _ => none

/-- Puts entries over those of a mapping. -/
def overlay (base upper : Entries Value) : Entries Value :=
  upper.foldl (fun done e => Entries.put done e.1 e.2) base

mutual

/-- Inlines references through a given meaning of their names. -/
def inlineWith (resolve : String → Except Misuse Value) : Value → Except Misuse Value
  | .map es =>
    match reference? es with
    | some name => do
      let definition ← resolve name
      let siblings ← inlineEntries resolve referenceKey es
      match definition with
      | .map base => .ok (.map (overlay base siblings))
      | _ => .error .operand
    | none => do
      let kept ← inlineEntries resolve definitionsKey es
      return .map kept
  | .list items => do
    let inlined ← inlineItems resolve items
    return .list inlined
  | v => .ok v

def inlineItems (resolve : String → Except Misuse Value) : List Value → Except Misuse (List Value)
  | [] => .ok []
  | v :: vs => do
    let first ← inlineWith resolve v
    let rest ← inlineItems resolve vs
    return first :: rest

/-- Inlines the values of entries and leaves one key out. -/
def inlineEntries (resolve : String → Except Misuse Value) (left : String) :
    List (Value × Value) → Except Misuse (List (Value × Value))
  | [] => .ok []
  | (k, v) :: es =>
    if Value.same (.text left) k then inlineEntries resolve left es
    else do
      let first ← inlineWith resolve v
      let rest ← inlineEntries resolve left es
      return (k, first) :: rest

end

/-- The meaning of a definition's name when at most `depth` definitions are open inside each other. -/
def resolveWithin (definitions : Entries Value) : (depth : Nat) → String → Except Misuse Value
  | 0, _ => .error .cycle
  | depth + 1, name =>
    match Entries.get? definitions (.text name) with
    | some body => inlineWith (resolveWithin definitions depth) body
    | none => .error .key

/-- Inlines every reference in a document. Without a cycle no definition is open inside itself, so
more definitions than there are cannot be open at once. -/
def inline (definitions : Entries Value) (node : Value) : Except Misuse Value :=
  inlineWith (resolveWithin definitions (definitions.length + 1)) node

end AccessGroups.Schema

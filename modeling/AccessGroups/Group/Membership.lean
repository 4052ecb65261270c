import AccessGroups.Fault
import AccessGroups.Identifier.LogicalId
import AccessGroups.Log.Event
import AccessGroups.Progress

/-!
Membership: which functions joined which access groups. Groups are declared with a policy and a role;
functions name the groups they join. The roster holds every declared group in declaration order with
the logical ids of the functions that joined it, in the order in which they did.
-/

set_option autoImplicit false

namespace AccessGroups

/-- The logical ids of a group's functions, or why what stands in their place cannot be gone through. -/
abbrev Members := Except Misuse (List Value)

namespace Members

/-- The members that a value lists. Whatever is empty lists none. -/
def ofValue (v : Value) : Members := if v.truthy then v.items else .ok []

/-- What cannot be gone through still counts as someone. -/
def isEmpty : Members → Bool
  | .ok ids => ids.isEmpty
  | .error _ => false

end Members

/-- An access group and the logical ids of its functions. The policy and the role are carried along
as they were declared. -/
structure ResolvedGroup where
  name : Value
  functions : Members
  policy : Value
  role : Value

namespace ResolvedGroup

/-- A group is used when a function has joined it. -/
def isUsed (g : ResolvedGroup) : Bool := !g.functions.isEmpty

def join (g : ResolvedGroup) (functionId : Value) : ResolvedGroup :=
  { g with functions := g.functions.map (· ++ [functionId]) }

/-- A declared group before anyone has joined it; an empty declaration has neither policy nor role. -/
def declare (name declaration : Value) : Except Misuse ResolvedGroup := do
  if declaration.truthy then
    return ⟨name, .ok [], ← declaration.field "policy", ← declaration.field "role"⟩
  else
    return ⟨name, .ok [], .null, .null⟩

end ResolvedGroup

/-- The state of resolving memberships. -/
structure Roster where
  groups : Entries ResolvedGroup
  /-- The function names whose logical ids were asked for, in order. -/
  asked : List Value
  events : List Log.Event

namespace Roster

def empty : Roster := ⟨[], [], []⟩

def logger : String := "lambdaaccess.compiler"

def declare (r : Roster) (group : Value × Value) : Progress Roster Fault :=
  .ofExcept r ((ResolvedGroup.declare group.1 group.2).mapError .misuse) fun resolved =>
    .done { r with groups := Entries.put r.groups group.1 resolved }

/-- One function joins one group, which must be declared. -/
def join (function functionId : Value) (r : Roster) (group : Value) : Progress Roster Fault :=
  if !group.hashable then .stop r (.misuse .operand)
  else
    match Entries.get? r.groups group with
    | none => .stop r (.config (.unknownGroup function group))
    | some resolved =>
      .done { r with
        groups := Entries.put r.groups group (resolved.join functionId)
        events := r.events ++ [.plain .debug logger
          ("Function " ++ functionId.display ++ " joined access group " ++ group.display)] }

/-- The groups that a function's declaration asks to join. -/
def requested (declaration : Value) : Except Misuse Value :=
  if declaration.truthy then declaration.field "allowAccess" else .ok .null

/-- A function joins every group that it asks for, in the order in which it does. Its logical id is
asked for once, and only if it asks for a group. -/
def enrol (scheme : Identifier.IdScheme) (r : Roster) (function : Value × Value) :
    Progress Roster Fault :=
  .ofExcept r ((requested function.2).mapError .misuse) fun wanted =>
    if !wanted.truthy then .done r
    else
      let asked := { r with asked := r.asked ++ [function.1] }
      .ofExcept asked ((scheme function.1).mapError .misuse) fun functionId =>
        Progress.walk (join function.1 functionId) asked wanted.oneOrMany

end Roster

/-- The entries of a value that has to be a mapping. -/
def Value.entries (v : Value) : Except Misuse (Entries Value) :=
  match v with
  | .map es => .ok es
  | _ => .error .member

def resolve (scheme : Identifier.IdScheme) (groups functions : Value) : Progress Roster Fault :=
  .ofExcept Roster.empty (groups.entries.mapError .misuse) fun declared =>
    (Progress.walk Roster.declare Roster.empty declared).andThen fun r =>
      .ofExcept r (functions.entries.mapError .misuse) fun functions =>
        Progress.walk (Roster.enrol scheme) r functions

end AccessGroups

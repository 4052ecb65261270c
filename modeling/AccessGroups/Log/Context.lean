import AccessGroups.Value.Entries

/-!
Context: a logger can be bound to an access group, and each call may name another group and a
function. What is not empty of them goes into the extras of the call, which are handed on as they came
otherwise.
-/

set_option autoImplicit false

namespace AccessGroups.Log

/-- A named argument of a call, or what it is taken for when absent. -/
def argumentOr (arguments : Entries Value) (name : String) (absent : Value) : Value :=
  (Entries.get? arguments (.text name)).getD absent

/-- Writes an entry into extras unless it is empty; only a mapping can be written into. -/
def bindExtra (name : String) (v extra : Value) : Except Misuse Value :=
  if v.truthy then
    match extra with
    | .map es => .ok (.map (Entries.put es (.text name) v))
    | _ => .error .operand
  else .ok extra

/-- The extras of a call with the context of a logger bound to `group`. -/
def contextExtra (group : Value) (arguments : Entries Value) : Except Misuse Value := do
  let extra := argumentOr arguments "extra" (.map [])
  let grouped ← bindExtra "group" (argumentOr arguments "group" group) extra
  bindExtra "function" (argumentOr arguments "function" .null) grouped

/-- The named arguments of a call as they are handed on: the context is inside the extras. -/
def bindContext (group : Value) (arguments : Entries Value) : Except Misuse (Entries Value) := do
  let extra ← contextExtra group arguments
  let rest := Entries.erase (Entries.erase arguments (.text "group")) (.text "function")
  return Entries.put rest (.text "extra") extra

/-- A call that is given extras which other calls are given too: what it hands on, and the extras as the
next call finds them. -/
def bindShared (group : Value) (arguments : Entries Value) (shared : Value) :
    Except Misuse (Entries Value) × Value :=
  match bindContext group (Entries.put arguments (.text "extra") shared) with
  | .ok handedOn => (.ok handedOn, argumentOr handedOn "extra" shared)
  | .error misuse => (.error misuse, shared)

/-- A call of a bound logger, as far as its context goes. -/
structure Invocation where
  /-- The group that the logger is bound to. -/
  group : Value
  arguments : Entries Value

/-- Calls one after another that are all given the same extras: what each hands on, and the extras as they
are after the last of them. -/
def bindAll (shared : Value) : List Invocation → List (Except Misuse (Entries Value)) × Value
  | [] => ([], shared)
  | call :: rest =>
    let (handedOn, after) := bindShared call.group call.arguments shared
    let (others, last) := bindAll after rest
    (handedOn :: others, last)

end AccessGroups.Log

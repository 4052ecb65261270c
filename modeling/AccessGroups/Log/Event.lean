import AccessGroups.Log.Level
import AccessGroups.Value.Basic

/-!
Events: what the library itself reports while it works, each under the name of the part that reports
it and, where it concerns one, with the access group and the function.
-/

set_option autoImplicit false

namespace AccessGroups.Log

structure Event where
  level : Level
  logger : String
  /-- The group that the event concerns, or `null`. -/
  group : Value
  /-- The logical id of the function that the event concerns, or `null`. -/
  function : Value
  message : String

/-- Empty context is left out. -/
def contextOf (v : Value) : Value := if v.truthy then v else .null

def Event.about (level : Level) (logger : String) (group function : Value) (message : String) :
    Event :=
  { level, logger, group := contextOf group, function := contextOf function, message }

def Event.plain (level : Level) (logger message : String) : Event :=
  { level, logger, group := .null, function := .null, message }

end AccessGroups.Log

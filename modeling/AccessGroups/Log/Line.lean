import AccessGroups.Log.Record
import AccessGroups.Log.TimePattern

/-!
Log lines. A record has fields: when, how severe, who logged, the message, the context where there is
one, a failure where there is one, and a preview of every extra. A JSON line holds all fields; a plain
line holds the first ones and no extras. An extra under the name of a field replaces the field.
-/

set_option autoImplicit false

namespace AccessGroups.Log

/-- How lines are written. -/
structure Format where
  json : Bool
  /-- A pattern for the time; without one, or with an empty one, milliseconds are shown. -/
  timePattern? : Option String

namespace Format

/-- When a record was made, as its line shows it. -/
def timestamp (f : Format) (r : Record) : Except Misuse String := do
  let moment ← Moment.ofValue r.created
  match f.timePattern?.getD "" with
  | "" => return String.ofList (moment.stampText (← wholePart r.milliseconds))
  | pattern =>
    if pattern.toList.contains '\x00' then .error .content
    else return String.ofList (moment.write pattern.toList)

/-- An entry for a value that is not empty. -/
def entryIf (name : String) (v : Value) : Entries Value :=
  if v.truthy then [(.text name, v)] else []

/-- The fields of a record before its extras. -/
def ownFields (f : Format) (r : Record) : Except Misuse (Entries Value) := do
  let timestamp ← f.timestamp r
  let message ← r.message
  let failure ← match r.raised? with
    | some raised => raised.text.map fun text => [(Value.text "exception", Value.text text)]
    | none => .ok []
  return [(.text "timestamp", .text timestamp), (.text "level", r.levelName),
    (.text "logger", r.logger), (.text "message", .text message)] ++
    entryIf "group" r.group ++ entryIf "function" r.function ++ failure

def fields (f : Format) (r : Record) : Except Misuse (Entries Value) :=
  (f.ownFields r).map fun own =>
    r.extras.foldl (fun done e => Entries.put done e.1 (.text (preview e.2))) own

/-- A field that has to be a text. -/
def textField (fields : Entries Value) (name : String) : Except Misuse String :=
  match Entries.get? fields (.text name) with
  | some (.text s) => .ok s
  | _ => .error .operand

def contextText (name : String) (v : Value) : List String :=
  if v.truthy then [name ++ "=" ++ v.display] else []

def plainLine (r : Record) (fields : Entries Value) : Except Misuse String := do
  let timestamp ← textField fields "timestamp"
  let level ← textField fields "level"
  let logger ← textField fields "logger"
  let message ← textField fields "message"
  let parts := ["[" ++ timestamp ++ "]", level, logger] ++ contextText "group" r.group ++
    contextText "function" r.function ++ [": " ++ message]
  return " ".intercalate parts

def jsonLine (fields : Entries Value) : Except Misuse String :=
  match Json.write? (.map fields) with
  | some line => .ok line
  | none => .error .operand

def line (f : Format) (r : Record) : Except Misuse String := do
  let fields ← f.fields r
  if f.json then jsonLine fields else plainLine r fields

end Format

end AccessGroups.Log

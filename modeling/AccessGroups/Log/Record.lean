import AccessGroups.Fault
import AccessGroups.Log.Template
import AccessGroups.Value.Path

/-!
Log records: a message template with its arguments, where and when it was logged, and further
attributes. Attributes that a record has of its own can be overwritten; all others are kept in the
order in which they were set.
-/

set_option autoImplicit false

namespace AccessGroups.Log

/-- A failure that a record reports beside its message. -/
inductive Raised where
  | failure (kind message : String)
  /-- A failure with a trace of where it comes from, as the runtime writes the two down. -/
  | traced (text : String)
  /-- A value in place of a failure. -/
  | given (v : Value)

namespace Raised

/-- What kinds of faults of this library are prefixed with. -/
def home : String := "lambdaaccess.exceptions."

/-- The kind of a failed look-up, whose message is the key that was not found. -/
def missingKeyKind : String := "KeyError"

/-- The kinds of malformed source texts, which say so when they lack a message. -/
def syntaxKinds : List String := ["SyntaxError", "IndentationError", "TabError"]

/-- Kinds that need more than a message. -/
def compoundKinds : List String :=
  ["UnicodeDecodeError", "UnicodeEncodeError", "UnicodeTranslateError", "BaseExceptionGroup",
    "ExceptionGroup"]

/-- Other names of the kind of a failure of the system. -/
def systemKinds : List String := ["IOError", "EnvironmentError"]

def make (kind message : String) : Except Misuse Raised :=
  if compoundKinds.contains kind then .error .operand
  else .ok (.failure (if systemKinds.contains kind then "OSError" else kind) message)

/-- A failure on one line: its kind and, if there is one, its message. -/
def failureText (kind message : String) : String :=
  match Category.ofName? kind with
  | some category =>
    home ++ category.name ++ ": " ++ if message == "" then defaultMessage else message
  | none =>
    let shown :=
      if kind == missingKeyKind then Text.quoted message
      else if message == "" && syntaxKinds.contains kind then "<no detail available>"
      else message
    if shown == "" then kind else kind ++ ": " ++ shown

/-- The text of a value in place of a failure: the value names the kind, the failure and its origin in
this order, and only a value that names none of them has a text. -/
def givenText (v : Value) : Except Misuse String := do
  let origin ← v.child (.int 2)
  let _ ← v.child (.int 0)
  let failure ← v.child (.int 1)
  if origin.isNull && failure.isNull then return "NoneType: None" else .error .member

def text : Raised → Except Misuse String
  | .failure kind message => .ok (failureText kind message)
  | .traced text => .ok text
  | .given v => givenText v

end Raised

structure Record where
  logger : Value
  levelName : Value
  template : Value
  /-- The arguments, packed as the template takes them. -/
  arguments : Value
  /-- Seconds since the start of 1970. -/
  created : Value
  milliseconds : Value
  raised? : Option Raised
  /-- The stack at the call, if the call asks for it. Only a record without a format shows it. -/
  stack? : Option String := none
  attributes : Entries Value

/-- The attributes that every record has of its own. -/
def ownAttributes : List String :=
  ["name", "msg", "args", "levelname", "levelno", "pathname", "filename", "module", "exc_info",
    "exc_text", "stack_info", "lineno", "funcName", "created", "msecs", "relativeCreated", "thread",
    "threadName", "processName", "process"]

/-- Attributes that are no extras: a record's own ones, those that formatting or a task sets, and the
context. -/
def hiddenAttributes : List String := ownAttributes ++ ["message", "taskName", "group", "function"]

/-- Names that an extra may not take: a record's own attributes and those that formatting sets. -/
def refusedExtras : List String := ownAttributes ++ ["message", "asctime"]

def isNamed (names : List String) (key : Value) : Bool :=
  match key with
  | .text name => names.contains name
  | _ => false

namespace Record

/-- Sets an attribute. Own attributes that no format shows are not kept. -/
def set (r : Record) (name : String) (v : Value) : Record :=
  match name, v with
  | "name", v => { r with logger := v }
  | "levelname", v => { r with levelName := v }
  | "msg", v => { r with template := v }
  | "args", v => { r with arguments := v }
  | "created", v => { r with created := v }
  | "msecs", v => { r with milliseconds := v }
  | "exc_info", v => { r with raised? := if v.truthy then some (.given v) else none }
  | name, v =>
    if ownAttributes.contains name then r
    else { r with attributes := Entries.put r.attributes (.text name) v }

/-- An attribute that is not one of the record's own, `null` when it is not set. -/
def member (r : Record) (name : String) : Value :=
  (Entries.get? r.attributes (.text name)).getD .null

def group (r : Record) : Value := r.member "group"

def function (r : Record) : Value := r.member "function"

/-- The attributes that callers added beyond the context, in order. -/
def extras (r : Record) : Entries Value := r.attributes.filter fun e => !isNamed hiddenAttributes e.1

/-- The name under which a record is asked for its message; an attribute of this name hides it. -/
def messageSource : String := "getMessage"

/-- The template of a record with its arguments filled in. -/
def message (r : Record) : Except Misuse String :=
  if Entries.has r.attributes (.text messageSource) then .error .operand
  else expand r.template r.arguments

/-- A text with another one on the next line, if there is another one. -/
def withBelow (above below : String) : String :=
  if below == "" then above
  else if above.toList.getLast? == some '\n' then above ++ below
  else above ++ "\n" ++ below

/-- A record without a format: its message, and below it its failure and its stack. -/
def bareText (r : Record) : Except Misuse String := do
  let message ← r.message
  let failure ← match r.raised? with
    | some raised => raised.text
    | none => .ok ""
  return withBelow (withBelow message failure) (r.stack?.getD "")

end Record

end AccessGroups.Log

import AccessGroups.Log.Context
import AccessGroups.Log.Line
import AccessGroups.Settings

/-!
A logging session: setups and log calls in any order. The root logger has a level, below which no record is
made, and handlers, each of which writes the records that it is given. A setup sets the level, takes every
handler away and adds a console at the same level, in the form that the settings ask for. A call whose
arguments do not fit its template writes nothing.

The root logger is the only one with a level and handlers, and nothing but a setup changes them. What a
failure that is being handled and the stack look like is known where a call is made, and so is part of the
call.
-/

set_option autoImplicit false

namespace AccessGroups.Log

/-- A handler of the root logger: one from before any setup, which writes elsewhere, or a console that a
setup has added. -/
inductive Handler where
  | stale (number : Nat)
  | console (level : Level) (json : Bool)
  deriving DecidableEq

/-- The root logger. -/
structure Root where
  /-- The level from which on records are made. -/
  level : Level
  handlers : List Handler
  deriving DecidableEq

namespace Root

/-- The root logger before any setup, with the handlers that are there already. -/
def initial (stale : Nat) : Root := ⟨.warning, (List.range stale).map .stale⟩

def setLevel (root : Root) (level : Level) : Root := { root with level }

/-- Adds a handler that was made just now, so that it is not among the others. -/
def addHandler (root : Root) (handler : Handler) : Root :=
  { root with handlers := root.handlers ++ [handler] }

def removeHandler (root : Root) (handler : Handler) : Root :=
  { root with handlers := root.handlers.erase handler }

/-- The handlers are taken away one by one, in the order in which they are at first. -/
def setUp (root : Root) (settings : Settings) : Root :=
  let leveled := root.setLevel settings.logLevel
  let cleared := leveled.handlers.foldl removeHandler leveled
  cleared.addHandler (.console settings.logLevel settings.logJson)

end Root

/-- A call of a bound logger. -/
structure Call where
  logger : String
  /-- The number of the level, which need not be that of a level with a name. -/
  level : Int
  /-- The group that the logger is bound to. -/
  group : Value
  template : Value
  arguments : List Value
  /-- The arguments given by name, but for those of the call itself and for the failure. -/
  named : Entries Value
  /-- What is given as the failure, itself or by a value in place of it. -/
  cause : Raised := .given .null
  /-- The failure that is being handled where the call is made. -/
  handled? : Option Raised := none
  /-- The stack where the call is made. -/
  stack : String := ""

/-- A reading of the clock. -/
structure Instant where
  seconds : Int
  milliseconds : Nat

/-- The name of the logger that all others lie within, which the empty name stands for. -/
def rootLogger : String := "root"

/-- Adds an attribute under the next key of extras; no attribute may be set twice. -/
def addExtra (extra : Value) (done : Entries Value) (key : Value) : Except Misuse (Entries Value) :=
  if !key.hashable then .error .operand
  else if isNamed refusedExtras key || Entries.has done key then .error .key
  else (extra.child key).map (Entries.put done key)

/-- The attributes that extras give to a record: what the extras hold under each of their items. -/
def extraAttributes : Value → Except Misuse (Entries Value)
  | .null => .ok []
  | extra => do (← extra.items).foldlM (addExtra extra) []

/-- The named arguments that a call takes, but for those of the call itself and for the failure. -/
def callOptions : List String := ["group", "function", "extra", "stack_info", "stacklevel"]

/-- What frames of the stack can be counted by. -/
def isCount : Value → Bool
  | .int _ | .bool _ | .real _ => true
  | _ => false

namespace Call

/-- A call is refused for a named argument that none takes and for a count of frames that is no number. -/
def checkOptions (call : Call) : Except Misuse Unit :=
  if call.named.all (fun e => isNamed callOptions e.1) &&
      isCount (argumentOr call.named "stacklevel" (.int 1)) then .ok ()
  else .error .operand

/-- What stands for a failure where none is being handled. -/
def nothingHandled : Raised := .given (.tuple [.null, .null, .null])

/-- The failure of a call's record. A value that is true asks for the failure that is being handled, unless
it is a tuple. -/
def raised? (call : Call) : Option Raised :=
  match call.cause with
  | .given (.tuple (v :: vs)) => some (.given (.tuple (v :: vs)))
  | .given v => if v.truthy then some (call.handled?.getD nothingHandled) else none
  | failure => some failure

def stack? (call : Call) : Option String :=
  if (argumentOr call.named "stack_info" (.bool false)).truthy then some call.stack else none

def recordWith (call : Call) (now : Instant) (attributes : Entries Value) : Record where
  logger := .text (if call.logger == "" then rootLogger else call.logger)
  levelName := .text (Level.nameOfNumber call.level)
  template := call.template
  arguments := Arguments.pack call.arguments
  created := .int now.seconds
  milliseconds := .int now.milliseconds
  raised? := call.raised?
  stack? := call.stack?
  attributes

def record (call : Call) (now : Instant) : Except Misuse Record := do
  let extra ← contextExtra call.group call.named
  call.checkOptions
  let attributes ← extraAttributes extra
  return call.recordWith now attributes

end Call

/-- What is written for a line, where one can be made. -/
def writtenLine : Except Misuse String → String
  | .ok line => line ++ "\n"
  | .error _ => ""

/-- What a handler writes to the console for a record that was made at a level. -/
def Handler.emit (level : Int) (r : Record) : Handler → String
  | .stale _ => ""
  | .console least json =>
    if level < least.number then "" else writtenLine ((Format.mk json none).line r)

/-- What all handlers write. Where there is none the record is written without a format, from warnings on. -/
def Root.emit (root : Root) (level : Int) (r : Record) : String :=
  match root.handlers with
  | [] => if level < Level.warning.number then "" else writtenLine r.bareText
  | handlers => String.join (handlers.map (Handler.emit level r))

def Call.run (call : Call) (root : Root) (now : Instant) : Except Misuse String :=
  if call.level < root.level.number then .ok ""
  else (call.record now).map (root.emit call.level)

/-- Where settings come from: they are given by name, or read from environment variables. -/
inductive SettingsSource where
  | arguments (es : Entries Value)
  | environment (valueOf? : String → Option String)

def SettingsSource.read : SettingsSource → Except Misuse (Checked Settings)
  | .arguments es => Settings.ofArguments es
  | .environment valueOf? => .ok (Settings.ofEnvironment valueOf?)

/-- What is done in a session. -/
inductive Action where
  | setUp (source : SettingsSource)
  | call (call : Call)

/-- What a session answers: the root logger after a setup, or what a call wrote. -/
inductive Reply where
  | installed (root : Root)
  | rejected (issues : List Issue)
  | wrote (text : String)
  | misused (misuse : Misuse)

/-- Does one thing at an instant; only a setup whose settings are right changes the root logger. -/
def Root.act (root : Root) (now : Instant) : Action → Reply × Root
  | .setUp source =>
    match source.read with
    | .ok (.ok settings) => (.installed (root.setUp settings), root.setUp settings)
    | .ok (.error issues) => (.rejected issues, root)
    | .error misuse => (.misused misuse, root)
  | .call call =>
    match call.run root now with
    | .ok text => (.wrote text, root)
    | .error misuse => (.misused misuse, root)

def Root.actAll (root : Root) : List (Instant × Action) → List Reply × Root
  | [] => ([], root)
  | (now, action) :: rest =>
    let (reply, next) := root.act now action
    let (replies, last) := next.actAll rest
    (reply :: replies, last)

end AccessGroups.Log

import AccessGroups.Log.Level
import AccessGroups.Schema.Container
import AccessGroups.Text.UpperCase

/-!
Settings of a build: how much is logged and in which form, what host-facing lines start with, and
whether the access block is checked against its schema. Settings are given as a mapping or through
environment variables.
-/

set_option autoImplicit false

namespace AccessGroups

structure Settings where
  logLevel : Log.Level
  logJson : Bool
  logPrefix : String
  validateSchema : Bool

namespace Settings

open Schema

def defaultLogPrefix : String := "[serverless-plugin-lambda-account-access]"

def default : Settings := ⟨.info, false, defaultLogPrefix, false⟩

def levelField : FieldName := .single "log_level"

def jsonField : FieldName := .single "log_json"

def prefixField : FieldName := .single "log_prefix"

def validateField : FieldName := .single "validate_schema"

def fields : List FieldName := [levelField, jsonField, prefixField, validateField]

/-- The name of a value's kind in the message about a level that is no text. -/
def kindName : Value → String
  | .null => "NoneType"
  | .bool _ => "bool"
  | .int _ => "int"
  | .real _ => "float"
  | .text _ => "str"
  | .bytes _ => "bytes"
  | .list _ => "list"
  | .tuple _ => "tuple"
  | .map _ => "dict"

def levelNames : Value := .texts (Log.Level.all.map Log.Level.name)

/-- A level by its name, in letters of either case. -/
def checkLevel : Value → Checked Log.Level
  | .text s =>
    match Log.Level.ofName? (Text.upper s) with
    | some level => .ok level
    | none => .fail (.rule ("Invalid log level: " ++ s ++ ". Must be one of " ++ levelNames.literal))
  | v =>
    .fail (.rule ("Log level must be string or LogLevel enum, got <class '" ++ kindName v ++ "'>"))

/-- Reads settings from entries; what is not given has its default. -/
def check (es : Entries Value) : Checked Settings :=
  (Checked.both (optional es levelField default.logLevel checkLevel)
    (Checked.both (optional es jsonField default.logJson checkBoolean)
      (Checked.both (optional es prefixField default.logPrefix checkText)
        (Checked.both (optional es validateField default.validateSchema checkBoolean)
          (checkExtras .forbidden fields es))))).map
    fun (level, json, logPrefix, validate, _) => ⟨level, json, logPrefix, validate⟩

/-- Reads settings given by name; names are texts. -/
def ofArguments (arguments : Entries Value) : Except Misuse (Checked Settings) :=
  if arguments.all fun e => match e.1 with | .text _ => true | _ => false then .ok (check arguments)
  else .error .operand

def toValue (s : Settings) : Value :=
  .object
    [(levelField.inner, .text s.logLevel.name), (jsonField.inner, .bool s.logJson),
      (prefixField.inner, .text s.logPrefix), (validateField.inner, .bool s.validateSchema)]

/-- Whether an environment variable asks for something: it says so in one of four words. -/
def saysYes (s : String) : Bool :=
  ["true", "1", "yes", "on"].contains (String.ofList (s.toList.map Char.toLower))

/-- Reads settings from environment variables; those that are not set have their defaults. -/
def ofEnvironment (environment : String → Option String) : Checked Settings :=
  check
    [(.text levelField.inner, .text ((environment "LAMBDA_ACCESS_LOG_LEVEL").getD "INFO")),
      (.text jsonField.inner, .bool (saysYes ((environment "LAMBDA_ACCESS_LOG_JSON").getD "false"))),
      (.text prefixField.inner,
        .text ((environment "LAMBDA_ACCESS_LOG_PREFIX").getD defaultLogPrefix)),
      (.text validateField.inner,
        .bool (saysYes ((environment "LAMBDA_ACCESS_VALIDATE_SCHEMA").getD "false")))]

end Settings

end AccessGroups

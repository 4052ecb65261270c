import AccessGroups.Log.Preview
import AccessGroups.Schema.Issue
import AccessGroups.Value.Entries

/-!
What can be wrong with an access configuration. Every cause belongs to a category with a stable code;
the categories form a tree whose root covers them all. A cause carries the offending values, from which
its message and its details are made.
-/

set_option autoImplicit false

namespace AccessGroups

/-- Categories of configuration faults. -/
inductive Category where
  | accessConfig
  | configuration
  | groupReference
  | policyConfig
  | roleConfig
  | duplicateRole
  | principalConfig
  | schemaValidation
  deriving DecidableEq, Inhabited

namespace Category

/-- All categories, the root first. -/
def all : List Category :=
  [accessConfig, configuration, groupReference, policyConfig, roleConfig, duplicateRole,
    principalConfig, schemaValidation]

def name : Category → String
  | accessConfig => "AccessConfigError"
  | configuration => "ConfigurationError"
  | groupReference => "GroupReferenceError"
  | policyConfig => "PolicyConfigError"
  | roleConfig => "RoleConfigError"
  | duplicateRole => "DuplicateRoleError"
  | principalConfig => "PrincipalConfigError"
  | schemaValidation => "SchemaValidationError"

def ofName? (name : String) : Option Category := all.find? (·.name == name)

def code : Category → String
  | accessConfig => "ACCESS_CONFIG_ERROR"
  | configuration => "CONFIGURATION_ERROR"
  | groupReference => "GROUP_REFERENCE_ERROR"
  | policyConfig => "POLICY_CONFIG_ERROR"
  | roleConfig => "ROLE_CONFIG_ERROR"
  | duplicateRole => "DUPLICATE_ROLE_ERROR"
  | principalConfig => "PRINCIPAL_CONFIG_ERROR"
  | schemaValidation => "SCHEMA_VALIDATION_ERROR"

/-- The next wider category; only the root has none. -/
def parent? : Category → Option Category
  | accessConfig => none
  | duplicateRole => some roleConfig
  | schemaValidation => some configuration
  | _ => some accessConfig

/-- A category lies within itself, its parent, and all that its parent lies within. -/
def within (narrow wide : Category) : Bool :=
  narrow == wide || wide == accessConfig || narrow.parent? == some wide

/-- Faults of this category also count as references to something that does not exist. -/
def isReference (c : Category) : Bool := c == groupReference

end Category

/-- The message of a fault that gives none of its own. -/
def defaultMessage : String := "Invalid access configuration"

/-- What is wrong with a configuration. -/
inductive ConfigFault where
  /-- The access block has no `groups`. -/
  | missingGroups
  /-- A function asks to join a group that is not declared. -/
  | unknownGroup (function group : Value)
  | policyWithoutPrincipals (group : Value)
  | roleNotMapping (group directive : Value)
  | roleWithoutName (group : Value)
  | roleWithoutPrincipals (group role : Value)
  /-- The resource name of the role is already taken. -/
  | duplicateRole (group role : Value)
  /-- A principal is neither a literal nor a reference to an intrinsic function. -/
  | badPrincipal (principal : Value)
  /-- The access block does not match its schema. -/
  | schemaMismatch (issues : List Issue)

namespace ConfigFault

def category : ConfigFault → Category
  | missingGroups => .configuration
  | unknownGroup .. => .groupReference
  | policyWithoutPrincipals .. => .policyConfig
  | roleNotMapping .. => .roleConfig
  | roleWithoutName .. => .roleConfig
  | roleWithoutPrincipals .. => .roleConfig
  | duplicateRole .. => .duplicateRole
  | badPrincipal .. => .principalConfig
  | schemaMismatch .. => .schemaValidation

/-- The message of a fault; of a schema mismatch, its first line. -/
def message : ConfigFault → String
  | missingGroups => "Access configuration must define \"groups\""
  | unknownGroup function group =>
    "Function \"" ++ function.display ++ "\" references an access group \"" ++ group.display ++
      "\" that does not exist"
  | policyWithoutPrincipals group =>
    "Policy of access group \"" ++ group.display ++ "\" must define principals"
  | roleNotMapping group directive =>
    "Role of access group \"" ++ group.display ++ "\" must be a mapping, got " ++
      Log.preview directive
  | roleWithoutName group => "Role of access group \"" ++ group.display ++ "\" must define a name"
  | roleWithoutPrincipals group role =>
    "Role \"" ++ role.display ++ "\" of access group \"" ++ group.display ++
      "\" must define principals"
  | duplicateRole _ role => "Roles must have unique names [" ++ role.display ++ "]"
  | badPrincipal principal =>
    "Principal " ++ principal.literal ++
      " is not a string, a number or an intrinsic function reference"
  | schemaMismatch issues =>
    "Invalid access configuration: " ++ toString issues.length ++ " error(s)"

/-- The offending names and values, by what they are. -/
def details : ConfigFault → List (String × Value)
  | missingGroups => []
  | unknownGroup function group => [("function", function), ("group", group)]
  | policyWithoutPrincipals group => [("group", group)]
  | roleNotMapping group _ => [("group", group)]
  | roleWithoutName group => [("group", group)]
  | roleWithoutPrincipals group role => [("group", group), ("role", role)]
  | duplicateRole group role => [("group", group), ("role", role)]
  | badPrincipal principal => [("principal", principal)]
  | schemaMismatch _ => []

end ConfigFault

/-- Why a run stopped: the configuration is at fault, or a value was misused. -/
inductive Fault where
  | config (fault : ConfigFault)
  | misuse (misuse : Misuse)

/-- A report of a fault under a category: the message and the code fall back on the category's own
where they are empty. -/
structure Report where
  category : Category
  message : Value
  code : Value
  details : List (String × Value)

namespace Report

/-- Names that are a report's own and cannot name a detail. -/
def ownNames : List String := ["self", "message", "code"]

def make (category : Category) (message code : Value) (details : List (String × Value)) :
    Except Misuse Report :=
  if details.any fun detail => ownNames.contains detail.1 then .error .operand
  else .ok
    { category
      message := if message.truthy then message else .text defaultMessage
      code := if code.truthy then code else .text category.code
      details }

end Report

end AccessGroups

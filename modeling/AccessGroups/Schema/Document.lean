import AccessGroups.Schema.Model
import AccessGroups.Schema.Reference

/-!
The schema as documents that a host can check configuration against. Each record has a document, which
refers to the records inside it by name; the inlined documents refer to nothing.
-/

set_option autoImplicit false

namespace AccessGroups.Schema

namespace Document

def ofType (name : String) : Value := .object [("type", .text name)]

def anyOf (forms : List Value) : String × Value := ("anyOf", .list forms)

def listOf (item : Value) : Value := .object [("items", item), ("type", .text "array")]

def anyMapping : Value := .object [("additionalProperties", .bool true), ("type", .text "object")]

def titled (title : String) (rest : List (String × Value)) : Value :=
  .object (rest ++ [("title", .text title)])

def principalForms : List Value := [ofType "string", ofType "integer", anyMapping]

def principals : Value :=
  titled "Principals" [anyOf (principalForms ++ [listOf (.object [anyOf principalForms])])]

def record (title description : String) (properties : List (String × Value))
    (rest : List (String × Value)) : Value :=
  .object <|
    [("description", .text description), ("properties", .object properties),
      ("title", .text title), ("type", .text "object")] ++ rest

def requiring (fields : List FieldName) : String × Value :=
  ("required", .texts (fields.map FieldName.outer))

def closed : String × Value := ("additionalProperties", .bool false)

def role : Value :=
  record Role.title "Assumable role granted to a group."
    [(Role.nameField.outer, titled "Name" [("type", .text "string")]),
      (Role.principalsField.outer, principals),
      (Role.tagSessionField.outer,
        titled "Allowtagsession" [("default", .bool false), ("type", .text "boolean")]),
      (Role.durationField.outer,
        titled "Maxsessionduration"
          [("default", .int Template.defaultDuration),
            ("description", .text "Maximum session duration in seconds"),
            ("maximum", .int Template.greatestDuration),
            ("minimum", .int Template.leastDuration),
            ("type", .text "integer")])]
    [closed, requiring [Role.nameField, Role.principalsField]]

def policy : Value :=
  record Policy.title "Direct invoke permission granted to a group."
    [(Policy.principalsField.outer, principals)]
    [requiring [Policy.principalsField]]

def group : Value :=
  record Group.title "A named access group; needs a policy, a role, or both."
    [(Group.policyField.outer, .object
        [anyOf [referenceTo Policy.title, ofType "null"], ("default", .null)]),
      (Group.roleField.outer,
        titled "Role"
          [anyOf [referenceTo Role.title, listOf (referenceTo Role.title), ofType "null"],
            ("default", .null)])]
    [closed, ("minProperties", .int 1)]

def access : Value :=
  record Access.title "The ``provider.access`` block."
    [(Access.groupsField.outer,
      titled "Groups"
        [("additionalProperties", referenceTo Group.title), ("minProperties", .int 1),
          ("type", .text "object")])]
    [closed, requiring [Access.groupsField]]

def allowAccess : Value :=
  titled "Allowaccess"
    [anyOf [ofType "string", listOf (ofType "string"), ofType "null"], ("default", .null)]

def functionAccess : Value :=
  record FunctionAccess.title "The ``allowAccess`` property added to every function."
    [(FunctionAccess.allowAccessField.outer, allowAccess)]
    [("additionalProperties", .bool true)]

/-- The records that other records refer to. -/
def definitions : Entries Value :=
  [(.text Group.title, group), (.text Policy.title, policy), (.text Role.title, role)]

end Document

namespace Model

/-- The document of a record, with references to the records inside it. -/
def document : Model → Value
  | role => Document.role
  | policy => Document.policy
  | group => Document.group
  | access => Document.access
  | functionAccess => Document.functionAccess

def inlined (model : Model) : Except Misuse Value := inline Document.definitions model.document

end Model

/-- What functions may declare beside what the host knows. -/
def functionProperties : Except Misuse Value := do
  let document ← Model.functionAccess.inlined
  return .object [("properties", ← document.field "properties")]

/-- What the provider may declare beside what the host knows. -/
def providerProperties : Except Misuse Value := do
  let document ← Model.access.inlined
  return .object [("provider", .object [("properties", .object [("access", document)])])]

end AccessGroups.Schema

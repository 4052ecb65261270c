import AccessGroups.Schema.Document

/-!
Registration of the schema with a host. A host's schema handler supports some methods or none; each
document goes to the method for it, if the handler has one.
-/

set_option autoImplicit false

namespace AccessGroups.Deploy

/-- The schema handler of a host, by the methods that can be called on it. -/
structure Handler where
  methods : List String

/-- A document handed over to a handler's method. -/
structure Registration where
  method : String
  provider : String
  document : Value

def providerName : String := "aws"

def functionMethod : String := "define_function_properties"

def providerMethod : String := "define_provider"

/-- Hands a document over where the handler has the method. -/
def register (handler : Handler) (method : String) (document : Except Misuse Value) :
    Except Misuse (List Registration) :=
  if handler.methods.contains method then document.map fun d => [⟨method, providerName, d⟩]
  else .ok []

/-- Hands over the function properties first and the provider properties second. A host without a
handler gets nothing. -/
def registrations (handler? : Option Handler) : Except Misuse (List Registration) :=
  match handler? with
  | none => .ok []
  | some handler => do
    let first ← register handler functionMethod Schema.functionProperties
    let second ← register handler providerMethod Schema.providerProperties
    return first ++ second

end AccessGroups.Deploy

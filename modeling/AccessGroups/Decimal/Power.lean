/-!
Powers of two and of ten, as natural numbers.
-/

set_option autoImplicit false

namespace AccessGroups.Decimal

def twoTo (n : Nat) : Nat := Nat.pow 2 n

def tenTo (n : Nat) : Nat := Nat.pow 10 n

end AccessGroups.Decimal

/-!
Powers of natural numbers.
-/

namespace StanzaSchema

def power (base exponent : Nat) : Nat := Nat.pow base exponent

end StanzaSchema

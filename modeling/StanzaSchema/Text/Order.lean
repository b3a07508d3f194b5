/-!
The order of keys: by code point, which is also the order of the UTF-8 bytes. Used where maps come
out sorted.
-/

namespace StanzaSchema.Text

/-- Whether the first text stands strictly before the second. -/
def precedesChars : List Char → List Char → Bool
  | _, [] => false
  | [], _ :: _ => true
  | a :: as, b :: bs =>
    if a.toNat < b.toNat then true
    else if b.toNat < a.toNat then false
    else precedesChars as bs

def precedes (a b : String) : Bool :=
  precedesChars a.toList b.toList

end StanzaSchema.Text

import StanzaSchema.Number.Shortest

/-!
Decimal texts of whole and floating-point numbers.
-/

namespace StanzaSchema

def natText (n : Nat) : String := String.ofList (Nat.toDigits 10 n)

def intChars (value : Int) : List Char :=
  if value < 0 then '-' :: Nat.toDigits 10 value.natAbs else Nat.toDigits 10 value.natAbs

def intText (value : Int) : String := String.ofList (intChars value)

/-- How floating-point numbers are written: the range of leading places written without an
exponent. -/
structure FloatLayout where
  leastPlace : Int
  firstBeyond : Int

namespace FloatLayout

/-- All digits around the point, which has at least one digit on either side. -/
def positional (digits : List Char) (place : Int) : List Char :=
  if place < 0 then '0' :: '.' :: (List.replicate (place.natAbs - 1) '0' ++ digits)
  else
    let whole := place.natAbs + 1
    if digits.length ≤ whole then digits ++ List.replicate (whole - digits.length) '0' ++ ['.', '0']
    else digits.take whole ++ '.' :: digits.drop whole

/-- One digit before the point and a signed exponent. -/
def exponential (digits : List Char) (place : Int) : List Char :=
  let sign := if place < 0 then '-' else '+'
  let fraction := if digits.length ≤ 1 then [] else '.' :: digits.drop 1
  digits.take 1 ++ fraction ++ 'e' :: sign :: Nat.toDigits 10 place.natAbs

def chars (layout : FloatLayout) (x : Binary64) : List Char :=
  let shortest := x.shortest
  let digits := Nat.toDigits 10 shortest.digits
  let place : Int := shortest.exponent + digits.length - 1
  let body :=
    if layout.leastPlace ≤ place ∧ place < layout.firstBeyond then positional digits place
    else exponential digits place
  if x.negative then '-' :: body else body

def text (layout : FloatLayout) (x : Binary64) : String := String.ofList (layout.chars x)

end FloatLayout

end StanzaSchema

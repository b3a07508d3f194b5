import StanzaSchema.Number.Binary64

/-!
Decimals, and the floating-point numbers nearest to them. A decimal far out of range is settled by
its count of bits, at least three for each power of ten, so a large exponent costs nothing.
-/

namespace StanzaSchema

/-- The value `digits * 10 ^ exponent`. -/
structure Decimal where
  digits : Nat
  exponent : Int
deriving DecidableEq

namespace Decimal

/-- Whether the decimal is zero, or below half of the least number by its count of bits. -/
def isNegligible (decimal : Decimal) : Bool :=
  decimal.digits == 0 ||
    (decimal.exponent < 0 && (decimal.digits.log2 : Int) + 3 * decimal.exponent < -1076)

/-- Whether the decimal is at least `2 ^ 1024` by its count of bits. -/
def isExcessive (decimal : Decimal) : Bool :=
  0 ≤ decimal.exponent && 1024 ≤ (decimal.digits.log2 : Int) + 3 * decimal.exponent

/-- The value as numerator and denominator. -/
def ratio (decimal : Decimal) : Nat × Nat :=
  if decimal.exponent < 0 then (decimal.digits, power 10 decimal.exponent.natAbs)
  else (decimal.digits * power 10 decimal.exponent.natAbs, 1)

/-- The number nearest to the decimal, or none when that is beyond the largest one. -/
def nearest? (decimal : Decimal) : Option Binary64 :=
  if decimal.isNegligible then some (.zero false)
  else if decimal.isExcessive then none
  else Binary64.ofRatio? false decimal.ratio.1 decimal.ratio.2

end Decimal

end StanzaSchema

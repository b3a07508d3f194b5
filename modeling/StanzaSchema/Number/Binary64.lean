import StanzaSchema.Number.Power

/-!
Floating-point numbers of 64 bits as exact values: a sign and a significand times a power of two.
Each operation takes its exact rational result and rounds it once, to the nearest representable
number, a tie going to the even significand.
-/

namespace StanzaSchema

namespace Binary64

/-- The pairs that stand for a number: 53 bits with the top one set, or the smallest exponent. -/
def Representable (significand : Nat) (exponent : Int) : Prop :=
  significand < power 2 53 ∧ -1074 ≤ exponent ∧ exponent ≤ 971 ∧
    (power 2 52 ≤ significand ∨ exponent = -1074)

instance (significand : Nat) (exponent : Int) : Decidable (Representable significand exponent) :=
  inferInstanceAs (Decidable (_ ∧ _ ∧ _ ∧ _))

end Binary64

structure Binary64 where
  negative : Bool
  significand : Nat
  exponent : Int
  representable : Binary64.Representable significand exponent
deriving DecidableEq

namespace Binary64

def zero (negative : Bool) : Binary64 := ⟨negative, 0, -1074, by decide⟩

def isZero (x : Binary64) : Bool := x.significand == 0

/-- The number of these parts, or none when they lie beyond the largest one. -/
def ofParts? (negative : Bool) (significand : Nat) (exponent : Int) : Option Binary64 :=
  if valid : Representable significand exponent then some ⟨negative, significand, exponent, valid⟩
  else none

/-- The numerator and denominator of `num / den` divided by `2 ^ exponent`. -/
def scaled (num den : Nat) (exponent : Int) : Nat × Nat :=
  if exponent < 0 then (num * power 2 exponent.natAbs, den)
  else (num, den * power 2 exponent.natAbs)

/-- The integer nearest to `num / den`, a tie going to the even one. -/
def roundHalfEven (num den : Nat) : Nat :=
  let quotient := num / den
  let rest := num % den
  if 2 * rest < den then quotient
  else if den < 2 * rest then quotient + 1
  else quotient + quotient % 2

/-- The exponent at which `num / den` has 53 bits before the point, or the smallest exponent. -/
def exponentOf (num den : Nat) : Int :=
  let least : Int := (num.log2 : Int) - (den.log2 : Int) - 53
  let start : Int := if least < -1074 then -1074 else least
  let (n, d) := scaled num den start
  if n / d < power 2 53 then start else start + 1

/-- The number nearest to `num / den`, or none when that is beyond the largest one. -/
def ofRatio? (negative : Bool) (num den : Nat) : Option Binary64 :=
  if num = 0 then some (zero negative)
  else
    let exponent := exponentOf num den
    let (n, d) := scaled num den exponent
    let significand := roundHalfEven n d
    if significand = power 2 53 then ofParts? negative (power 2 52) (exponent + 1)
    else ofParts? negative significand exponent

/-- The size of the number as numerator and denominator. -/
def ratio (x : Binary64) : Nat × Nat :=
  if x.exponent < 0 then (x.significand, power 2 x.exponent.natAbs)
  else (x.significand * power 2 x.exponent.natAbs, 1)

def mul? (x y : Binary64) : Option Binary64 :=
  ofRatio? (x.negative != y.negative) (x.ratio.1 * y.ratio.1) (x.ratio.2 * y.ratio.2)

def div? (x y : Binary64) : Option Binary64 :=
  ofRatio? (x.negative != y.negative) (x.ratio.1 * y.ratio.2) (x.ratio.2 * y.ratio.1)

def negate (x : Binary64) : Binary64 := { x with negative := !x.negative }

/-- The largest power of ten that one multiplication or division takes. -/
def largestTenPower : Nat := 308

/-- Multiplies by `10 ^ exponent` in steps of at most `largestTenPower`, each of which rounds once.
None when the result lies beyond the largest number. -/
def scaleTen? (x : Binary64) (exponent : Int) : Option Binary64 :=
  if exponent.natAbs ≤ largestTenPower then do
    let factor ← ofRatio? false (power 10 exponent.natAbs) 1
    if exponent < 0 then x.div? factor else x.mul? factor
  else if x.isZero then some x
  else if 0 ≤ exponent then none
  else do
    let factor ← ofRatio? false (power 10 largestTenPower) 1
    let smaller ← x.div? factor
    smaller.scaleTen? (exponent + largestTenPower)
termination_by exponent.natAbs
decreasing_by simp only [largestTenPower] at *; omega

/-- The number read from a decimal `digits * 10 ^ exponent`: the digits are rounded first, then
scaled. -/
def ofDecimal? (negative : Bool) (digits : Nat) (exponent : Int) : Option Binary64 := do
  let start ← ofRatio? false digits 1
  let size ← start.scaleTen? exponent
  return if negative then size.negate else size

end Binary64

end StanzaSchema

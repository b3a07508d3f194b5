import StanzaSchema.Number.Decimal

/-!
The shortest decimal of a floating-point number: of all decimals that are nearer to it than to any
other number, the ones with the fewest digits, and of those the nearest, a tie going to the even
digit.
-/

namespace StanzaSchema

namespace Binary64

/-- The decimals that read back as a number, in quarters of its unit: all between the two ends, and
the ends themselves when the significand is even. The number itself stands at `middle`. -/
structure Neighbourhood where
  low : Nat
  middle : Nat
  high : Nat
  closed : Bool
  /-- Binary exponent of a quarter of the unit. -/
  exponent : Int

def neighbourhood (x : Binary64) : Neighbourhood :=
  let narrow := x.significand == power 2 52 && x.exponent != -1074
  { low := if narrow then 4 * x.significand - 1 else 4 * x.significand - 2
    middle := 4 * x.significand
    high := 4 * x.significand + 2
    closed := x.significand % 2 == 0
    exponent := x.exponent - 2 }

namespace Neighbourhood

/-- What a count of quarter units and a count of steps `10 ^ exponent` are multiplied by to compare
them as integers. -/
def factors (near : Neighbourhood) (exponent : Int) : Nat × Nat :=
  let tens := power 10 exponent.natAbs
  let twos := power 2 near.exponent.natAbs
  ((if near.exponent < 0 then 1 else twos) * (if exponent < 0 then tens else 1),
   (if exponent < 0 then 1 else tens) * (if near.exponent < 0 then twos else 1))

def holds (near : Neighbourhood) (factors : Nat × Nat) (steps : Nat) : Bool :=
  let place := steps * factors.2
  let low := near.low * factors.1
  let high := near.high * factors.1
  if near.closed then low ≤ place && place ≤ high else low < place && place < high

/-- The step nearest to the middle among those in the neighbourhood, if there is one. -/
def nearestStep? (near : Neighbourhood) (exponent : Int) : Option Nat :=
  let factors := near.factors exponent
  let middle := near.middle * factors.1
  let below := middle / factors.2
  let rest := middle % factors.2
  let above := below + 1
  match near.holds factors below, near.holds factors above with
  | true, true =>
    if 2 * rest < factors.2 then some below
    else if factors.2 < 2 * rest then some above
    else some (below + below % 2)
  | true, false => some below
  | false, true => some above
  | false, false => none

/-- The first hit on ever finer steps, starting at `10 ^ exponent`. -/
def search (near : Neighbourhood) : Nat → Int → Decimal
  | 0, exponent => ⟨near.middle * (near.factors exponent).1 / (near.factors exponent).2, exponent⟩
  | tries + 1, exponent =>
    match near.nearestStep? exponent with
    | some steps => ⟨steps, exponent⟩
    | none => near.search tries (exponent - 1)

/-- An exponent of ten above the whole neighbourhood: `log 2 / log 10` is below 0.30103. -/
def topExponent (near : Neighbourhood) : Int :=
  ((near.high.log2 : Int) + near.exponent + 1) * 30103 / 100000 + 1

end Neighbourhood

/-- The shortest decimal of the number's size. Seventeen digits always suffice. -/
def shortest (x : Binary64) : Decimal :=
  if x.isZero then ⟨0, 0⟩ else x.neighbourhood.search 20 x.neighbourhood.topExponent

end Binary64

end StanzaSchema

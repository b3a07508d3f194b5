import StanzaSchema.Json.Value
import StanzaSchema.Number.Digits

/-!
Numbers in JSON texts. Digits are gathered into a significand as long as it stays within 64 bits;
digits beyond that only count as places.
-/

namespace StanzaSchema.Json

/-- How a text fails to be JSON: it ended early, or something in it cannot stand where it does. -/
inductive Fault where
  | ended
  | malformed
deriving DecidableEq

/-- A reader takes what it understands from the front and leaves the rest. -/
abbrev Reads (α : Type) := List Char → Except Fault (α × List Char)

/-- The largest significand that is kept exactly. -/
def significandLimit : Nat := power 2 64 - 1

/-- Takes digits as long as the significand stays within its limit; also tells how many were
taken. -/
def readSignificand (significand : Nat) : List Char → Nat × Nat × List Char
  | [] => (significand, 0, [])
  | c :: chars =>
    let next := significand * 10 + digitValue c
    if isDecimalDigit c && next ≤ significandLimit then
      let (total, count, rest) := readSignificand next chars
      (total, count + 1, rest)
    else (significand, 0, c :: chars)

/-- Digits of no consequence: how many there are, and what follows. -/
def skipDigits (chars : List Char) : Nat × List Char :=
  ((chars.takeWhile isDecimalDigit).length, chars.dropWhile isDecimalDigit)

def startsWithDigit : List Char → Bool
  | [] => false
  | c :: _ => isDecimalDigit c

def finishFloating (negative : Bool) (significand : Nat) (exponent : Int) :
    Reads Json := fun chars =>
  match Binary64.ofDecimal? negative significand exponent with
  | some value => .ok (.number (.floating value), chars)
  | none => .error .malformed

/-- A whole number without fraction or exponent. A negative zero is floating-point, and so is what
does not fit. -/
def finishWhole (negative : Bool) (significand : Nat) : Reads Json := fun chars =>
  if negative && significand == 0 then finishFloating true 0 0 chars
  else
    let value : Int := if negative then -significand else significand
    if fits : Fits value then .ok (.number (.whole value fits), chars)
    else finishFloating negative significand 0 chars

/-- The digits after the exponent mark, shifting an exponent that stands already. -/
def readExponent (negative : Bool) (significand : Nat) (exponent : Int) : Reads Json := fun chars =>
  let (down, digits) := match chars with
    | '-' :: rest => (true, rest)
    | '+' :: rest => (false, rest)
    | rest => (false, rest)
  match digits with
  | [] => .error .ended
  | c :: _ =>
    if isDecimalDigit c then
      let size : Int := digitsValue 10 (digits.takeWhile isDecimalDigit)
      finishFloating negative significand (if down then exponent - size else exponent + size)
        (digits.dropWhile isDecimalDigit)
    else .error .malformed

def readExponentOrEnd (negative : Bool) (significand : Nat) (exponent : Int) :
    Reads Json := fun chars =>
  match chars with
  | c :: rest =>
    if c = 'e' ∨ c = 'E' then readExponent negative significand exponent rest
    else finishFloating negative significand exponent chars
  | [] => finishFloating negative significand exponent chars

/-- The digits after the point. Digits beyond the significand's limit are dropped. -/
def readFraction (negative : Bool) (significand : Nat) (exponent : Int) : Reads Json := fun chars =>
  let (total, count, rest) := readSignificand significand chars
  if startsWithDigit rest then
    readExponentOrEnd negative total (exponent - count) (skipDigits rest).2
  else if count = 0 then .error (if rest.isEmpty then .ended else .malformed)
  else readExponentOrEnd negative total (exponent - count) rest

/-- What follows the whole part, of which `dropped` digits went beyond the significand's limit. -/
def readNumberTail (negative : Bool) (significand dropped : Nat) : Reads Json := fun chars =>
  match chars with
  | '.' :: rest => readFraction negative significand dropped rest
  | c :: rest =>
    if c = 'e' ∨ c = 'E' then readExponent negative significand dropped rest
    else if dropped = 0 then finishWhole negative significand chars
    else finishFloating negative significand dropped chars
  | [] =>
    if dropped = 0 then finishWhole negative significand chars
    else finishFloating negative significand dropped chars

def readNumber (negative : Bool) : Reads Json := fun chars =>
  match chars with
  | [] => .error .ended
  | '0' :: rest =>
    if startsWithDigit rest then .error .malformed else readNumberTail negative 0 0 rest
  | c :: _ =>
    if isDecimalDigit c then
      let (significand, _, rest) := readSignificand 0 chars
      let (dropped, tail) := skipDigits rest
      readNumberTail negative significand dropped tail
    else .error .malformed

/-- The number that a whole text spells. -/
def numeral (chars : List Char) : Except Fault Json :=
  let read := match chars with
    | '-' :: rest => readNumber true rest
    | _ => readNumber false chars
  match read with
  | .error fault => .error fault
  | .ok (value, []) => .ok value
  | .ok (_, _ :: _) => .error .malformed

end StanzaSchema.Json

/-! Binary floating-point numbers of 64 bits, by their bits. A decimal numeral is rounded to the
nearest number in exact natural arithmetic, a tie going to the even neighbour. -/
namespace LinkedProof

structure Binary64 where
  bits : UInt64
  deriving DecidableEq

namespace Binary64

-- Powers are the core library's, whatever else is in scope.
attribute [local instance (high)] instPowNat

def fraction (x : Binary64) : Nat := x.bits.toNat % 2 ^ (52 : Nat)

def biasedExponent (x : Binary64) : Nat := x.bits.toNat / 2 ^ (52 : Nat) % 2 ^ (11 : Nat)

def isNegative (x : Binary64) : Bool := 2 ^ (63 : Nat) ≤ x.bits.toNat

def isNaN (x : Binary64) : Bool := x.biasedExponent = 2047 && x.fraction ≠ 0

def isInfinite (x : Binary64) : Bool := x.biasedExponent = 2047 && x.fraction = 0

def isZero (x : Binary64) : Bool := x.biasedExponent = 0 && x.fraction = 0

def mantissa (x : Binary64) : Nat :=
  if x.biasedExponent = 0 then x.fraction else 2 ^ (52 : Nat) + x.fraction

def exponent (x : Binary64) : Int :=
  if x.biasedExponent = 0 then -1074 else (x.biasedExponent : Int) - 1075

def ofFields (negative : Bool) (biasedExponent fraction : Nat) : Binary64 :=
  ⟨UInt64.ofNat
    ((if negative then 2 ^ (63 : Nat) else 0) + biasedExponent * 2 ^ (52 : Nat) + fraction)⟩

def nan : Binary64 := ofFields false 2047 (2 ^ (51 : Nat))

def infinity (negative : Bool) : Binary64 := ofFields negative 2047 0

def zero (negative : Bool) : Binary64 := ofFields negative 0 0

def roundQuotient (numerator denominator : Nat) : Nat :=
  let whole := numerator / denominator
  let rest := 2 * (numerator % denominator)
  if rest < denominator then whole
  else if denominator < rest then whole + 1
  else whole + whole % 2

def scaled (numerator denominator : Nat) (exponent : Int) : Nat × Nat :=
  if exponent < 0 then (numerator * 2 ^ exponent.natAbs, denominator)
  else (numerator, denominator * 2 ^ exponent.natAbs)

/-- The exponent that leaves 53 bits of a positive quotient in front of the point, or the least one.
It is first taken from the lengths of the two parts, which misses it by at most one. -/
def exponentOf (numerator denominator : Nat) : Int :=
  let guess : Int := (numerator.log2 : Int) - denominator.log2 - 52
  let (n, d) := scaled numerator denominator guess
  max (if n < d * 2 ^ (52 : Nat) then guess - 1 else guess) (-1074)

def ofMantissa (negative : Bool) (mantissa : Nat) (exponent : Int) : Binary64 :=
  let (m, exponent) :=
    if mantissa = 2 ^ (53 : Nat) then (2 ^ (52 : Nat), exponent + 1) else (mantissa, exponent)
  if m < 2 ^ (52 : Nat) then ofFields negative 0 m
  else if 971 < exponent then infinity negative
  else ofFields negative (exponent + 1075).toNat (m - 2 ^ (52 : Nat))

def ofQuotient (negative : Bool) (numerator denominator : Nat) : Binary64 :=
  let exponent := exponentOf numerator denominator
  let parts := scaled numerator denominator exponent
  ofMantissa negative (roundQuotient parts.1 parts.2) exponent

/-- The number nearest to `digits * 10 ^ exponent`. Magnitudes far outside the range are settled
before any power of ten is taken. -/
def ofDecimal (negative : Bool) (digits : Nat) (exponent : Int) : Binary64 :=
  if digits = 0 then zero negative
  else
    let least := (digits.log2 : Int) * 3 / 10 + exponent
    let most := ((digits.log2 : Int) + 1) * 31 / 100 + 1 + exponent
    if 400 < least then infinity negative
    else if most < -400 then zero negative
    else if exponent < 0 then ofQuotient negative digits (10 ^ exponent.natAbs)
    else ofQuotient negative (digits * 10 ^ exponent.natAbs) 1

def ofInt (i : Int) : Binary64 := ofDecimal (i < 0) i.natAbs 0

def isPositive (x : Binary64) : Bool := !x.isNaN && !x.isNegative && !x.isZero

end Binary64

end LinkedProof

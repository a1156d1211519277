import LinkedProof.Crypto.Curve

/-! The numbers of a private key whose modulus is a product of two primes. -/
namespace LinkedProof

def reachesBySquares (n target : Nat) : Nat → Nat → Bool
  | 0, x => x = target
  | fuel + 1, x => x = target || reachesBySquares n target fuel (x * x % n)

def passesBase (n base : Nat) : Bool :=
  let (odd, count) := CurvePoint.oddPart (n.log2 + 1) (n - 1)
  let x := powerMod n base (n.log2 + 1) odd
  base % n = 0 || x = 1 || reachesBySquares n (n - 1) (count - 1) x

def testBases : List Nat :=
  [2, 3, 5, 7, 11, 13, 17, 19, 23, 29, 31, 37, 41, 43, 47, 53, 59, 61, 67, 71]

def isProbablePrime (n : Nat) : Bool :=
  n = 2 || (2 < n && n % 2 = 1 && testBases.all (passesBase n))

structure RsaKey where
  modulus : Nat
  publicExponent : Nat
  privateExponent : Nat
  firstPrime : Nat
  secondPrime : Nat
  firstExponent : Nat
  secondExponent : Nat
  coefficient : Nat

def RsaKey.isConsistent (k : RsaKey) : Bool :=
  let p := k.firstPrime
  let q := k.secondPrime
  k.publicExponent % 2 = 1 && 1 < k.publicExponent
    && isProbablePrime p && isProbablePrime q && k.modulus = p * q
    && k.publicExponent * k.privateExponent % Nat.lcm (p - 1) (q - 1) = 1
    && k.firstExponent = k.privateExponent % (p - 1)
    && k.secondExponent = k.privateExponent % (q - 1)
    && k.coefficient < p && k.coefficient * q % p = 1

end LinkedProof

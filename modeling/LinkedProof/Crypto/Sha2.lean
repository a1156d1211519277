import LinkedProof.Bytes

/-! The SHA-2 digests on words of 32 and of 64 bits. Both families take the leading bits of the same
roots of primes, so one table of 64-bit fractions serves both. -/
namespace LinkedProof.Sha2

def cubeRoots : List Nat :=
  [0x428a2f98d728ae22, 0x7137449123ef65cd, 0xb5c0fbcfec4d3b2f, 0xe9b5dba58189dbbc,
    0x3956c25bf348b538, 0x59f111f1b605d019, 0x923f82a4af194f9b, 0xab1c5ed5da6d8118,
    0xd807aa98a3030242, 0x12835b0145706fbe, 0x243185be4ee4b28c, 0x550c7dc3d5ffb4e2,
    0x72be5d74f27b896f, 0x80deb1fe3b1696b1, 0x9bdc06a725c71235, 0xc19bf174cf692694,
    0xe49b69c19ef14ad2, 0xefbe4786384f25e3, 0x0fc19dc68b8cd5b5, 0x240ca1cc77ac9c65,
    0x2de92c6f592b0275, 0x4a7484aa6ea6e483, 0x5cb0a9dcbd41fbd4, 0x76f988da831153b5,
    0x983e5152ee66dfab, 0xa831c66d2db43210, 0xb00327c898fb213f, 0xbf597fc7beef0ee4,
    0xc6e00bf33da88fc2, 0xd5a79147930aa725, 0x06ca6351e003826f, 0x142929670a0e6e70,
    0x27b70a8546d22ffc, 0x2e1b21385c26c926, 0x4d2c6dfc5ac42aed, 0x53380d139d95b3df,
    0x650a73548baf63de, 0x766a0abb3c77b2a8, 0x81c2c92e47edaee6, 0x92722c851482353b,
    0xa2bfe8a14cf10364, 0xa81a664bbc423001, 0xc24b8b70d0f89791, 0xc76c51a30654be30,
    0xd192e819d6ef5218, 0xd69906245565a910, 0xf40e35855771202a, 0x106aa07032bbd1b8,
    0x19a4c116b8d2d0c8, 0x1e376c085141ab53, 0x2748774cdf8eeb99, 0x34b0bcb5e19b48a8,
    0x391c0cb3c5c95a63, 0x4ed8aa4ae3418acb, 0x5b9cca4f7763e373, 0x682e6ff3d6b2b8a3,
    0x748f82ee5defb2fc, 0x78a5636f43172f60, 0x84c87814a1f0ab72, 0x8cc702081a6439ec,
    0x90befffa23631e28, 0xa4506cebde82bde9, 0xbef9a3f7b2c67915, 0xc67178f2e372532b,
    0xca273eceea26619c, 0xd186b8c721c0c207, 0xeada7dd6cde0eb1e, 0xf57d4f7fee6ed178,
    0x06f067aa72176fba, 0x0a637dc5a2c898a6, 0x113f9804bef90dae, 0x1b710b35131c471b,
    0x28db77f523047d84, 0x32caab7b40c72493, 0x3c9ebe0a15c9bebc, 0x431d67c49c100d4c,
    0x4cc5d4becb3e42b6, 0x597f299cfc657e2a, 0x5fcb6fab3ad6faec, 0x6c44198c4a475817]

def squareRoots : List Nat :=
  [0x6a09e667f3bcc908, 0xbb67ae8584caa73b, 0x3c6ef372fe94f82b, 0xa54ff53a5f1d36f1,
    0x510e527fade682d1, 0x9b05688c2b3e6c1f, 0x1f83d9abfb41bd6b, 0x5be0cd19137e2179,
    0xcbbb9d5dc1059ed8, 0x629a292a367cd507, 0x9159015a3070dd17, 0x152fecd8f70e5939,
    0x67332667ffc00b31, 0x8eb44a8768581511, 0xdb0c2e0d64f98fa7, 0x47b5481dbefa4fa4]

structure Mixing where
  first : Nat
  second : Nat
  third : Nat

structure Family (w : Nat) where
  rounds : List (BitVec w)
  stateA : Mixing
  stateE : Mixing
  early : Mixing
  late : Mixing

-- Powers are the core library's, whatever else is in scope.
attribute [local instance (high)] instPowNat

def narrow : Family 32 where
  rounds := (cubeRoots.take 64).map fun k => BitVec.ofNat 32 (k / 2 ^ (32 : Nat))
  stateA := ⟨2, 13, 22⟩
  stateE := ⟨6, 11, 25⟩
  early := ⟨7, 18, 3⟩
  late := ⟨17, 19, 10⟩

def wide : Family 64 where
  rounds := cubeRoots.map (BitVec.ofNat 64)
  stateA := ⟨28, 34, 39⟩
  stateE := ⟨14, 18, 41⟩
  early := ⟨1, 8, 7⟩
  late := ⟨19, 61, 6⟩

variable {w : Nat}

def Mixing.rotated (m : Mixing) (x : BitVec w) : BitVec w :=
  x.rotateRight m.first ^^^ x.rotateRight m.second ^^^ x.rotateRight m.third

def Mixing.shifted (m : Mixing) (x : BitVec w) : BitVec w :=
  x.rotateRight m.first ^^^ x.rotateRight m.second ^^^ (x >>> m.third)

structure Working (w : Nat) where
  a : BitVec w
  b : BitVec w
  c : BitVec w
  d : BitVec w
  e : BitVec w
  f : BitVec w
  g : BitVec w
  h : BitVec w

def Working.ofList (words : List (BitVec w)) : Working w :=
  let at_ (i : Nat) := words.getD i 0
  ⟨at_ 0, at_ 1, at_ 2, at_ 3, at_ 4, at_ 5, at_ 6, at_ 7⟩

def Working.toList (s : Working w) : List (BitVec w) := [s.a, s.b, s.c, s.d, s.e, s.f, s.g, s.h]

def Working.add (s t : Working w) : Working w :=
  ⟨s.a + t.a, s.b + t.b, s.c + t.c, s.d + t.d, s.e + t.e, s.f + t.f, s.g + t.g, s.h + t.h⟩

def round (family : Family w) (s : Working w) (word constant : BitVec w) : Working w :=
  let choice := (s.e &&& s.f) ^^^ (~~~s.e &&& s.g)
  let majority := (s.a &&& s.b) ^^^ (s.a &&& s.c) ^^^ (s.b &&& s.c)
  let t := s.h + family.stateE.rotated s.e + choice + constant + word
  let u := family.stateA.rotated s.a + majority
  ⟨t + u, s.a, s.b, s.c, s.d + t, s.e, s.f, s.g⟩

def nextWord (family : Family w) (window : List (BitVec w)) : BitVec w :=
  let at_ (i : Nat) := window.getD i 0
  family.late.shifted (at_ 14) + at_ 9 + family.early.shifted (at_ 1) + at_ 0

def rounds (family : Family w) : List (BitVec w) → Working w → List (BitVec w) → Working w
  | [], s, _ => s
  | constant :: constants, s, window =>
    rounds family constants (round family s (window.getD 0 0) constant)
      (window.drop 1 ++ [nextWord family window])

def wordsOf (w : Nat) : Nat → Bytes → List (BitVec w)
  | 0, _ => []
  | count + 1, bytes =>
    BitVec.ofNat w (Bytes.toNat (bytes.take (w / 8))) :: wordsOf w count (bytes.drop (w / 8))

def padded (w : Nat) (message : Bytes) : Bytes :=
  let block := 2 * w
  let lengthSize := w / 4
  let zeros := (block - (message.length + 1 + lengthSize) % block) % block
  message ++ 0x80 :: List.replicate zeros 0 ++ Bytes.ofNat lengthSize (8 * message.length)

def absorb (family : Family w) : Nat → Working w → Bytes → Working w
  | 0, s, _ => s
  | blocks + 1, s, bytes =>
    absorb family blocks (s.add (rounds family family.rounds s (wordsOf w 16 bytes)))
      (bytes.drop (2 * w))

def run (family : Family w) (initial : List (BitVec w)) (message : Bytes) : Bytes :=
  let bytes := padded w message
  let final := absorb family (bytes.length / (2 * w)) (Working.ofList initial) bytes
  final.toList.flatMap fun word => Bytes.ofNat (w / 8) word.toNat

end LinkedProof.Sha2

namespace LinkedProof

inductive Digest
  | sha256
  | sha384
  | sha512
  deriving DecidableEq

namespace Digest

def size : Digest → Nat
  | sha256 => 32
  | sha384 => 48
  | sha512 => 64

def blockSize : Digest → Nat
  | sha256 => 64
  | sha384 => 128
  | sha512 => 128

-- Powers are the core library's, whatever else is in scope.
attribute [local instance (high)] instPowNat

def hash : Digest → Bytes → Bytes
  | sha256, message =>
    Sha2.run Sha2.narrow
      ((Sha2.squareRoots.take 8).map fun h => BitVec.ofNat 32 (h / 2 ^ (32 : Nat))) message
  | sha384, message =>
    (Sha2.run Sha2.wide ((Sha2.squareRoots.drop 8).map (BitVec.ofNat 64)) message).take 48
  | sha512, message =>
    Sha2.run Sha2.wide ((Sha2.squareRoots.take 8).map (BitVec.ofNat 64)) message

def hmac (digest : Digest) (key message : Bytes) : Bytes :=
  let key := if digest.blockSize < key.length then digest.hash key else key
  let key := key ++ List.replicate (digest.blockSize - key.length) 0
  digest.hash (key.map (· ^^^ 0x5C) ++ digest.hash (key.map (· ^^^ 0x36) ++ message))

end Digest

end LinkedProof

import LinkedProof.Bytes

/-! Elliptic curves in short Weierstrass form over prime fields, by the names and numbers of the
standards, and arithmetic on their points in Jacobian coordinates. -/
namespace LinkedProof

-- Powers are the core library's, whatever else is in scope.
attribute [local instance (high)] instPowNat

/-- The curve `y ^ 2 = x ^ 3 + a * x + b` over the field of `p` elements with a base point of prime
order `n`. `bits` is the length of a coordinate. -/
structure Curve where
  name : Text
  bits : Nat
  p : Nat
  a : Nat
  b : Nat
  gx : Nat
  gy : Nat
  n : Nat
  deriving DecidableEq

namespace Curve

def secp192r1 : Curve where
  name := "secp192r1"
  bits := 192
  p := 0xfffffffffffffffffffffffffffffffeffffffffffffffff
  a := 0xfffffffffffffffffffffffffffffffefffffffffffffffc
  b := 0x64210519e59c80e70fa7e9ab72243049feb8deecc146b9b1
  gx := 0x188da80eb03090f67cbf20eb43a18800f4ff0afd82ff1012
  gy := 0x07192b95ffc8da78631011ed6b24cdd573f977a11e794811
  n := 0xffffffffffffffffffffffff99def836146bc9b1b4d22831

def secp224r1 : Curve where
  name := "secp224r1"
  bits := 224
  p := 0xffffffffffffffffffffffffffffffff000000000000000000000001
  a := 0xfffffffffffffffffffffffffffffffefffffffffffffffffffffffe
  b := 0xb4050a850c04b3abf54132565044b0b7d7bfd8ba270b39432355ffb4
  gx := 0xb70e0cbd6bb4bf7f321390b94a03c1d356c21122343280d6115c1d21
  gy := 0xbd376388b5f723fb4c22dfe6cd4375a05a07476444d5819985007e34
  n := 0xffffffffffffffffffffffffffff16a2e0b8f03e13dd29455c5c2a3d

def secp256r1 : Curve where
  name := "secp256r1"
  bits := 256
  p := 0xffffffff00000001000000000000000000000000ffffffffffffffffffffffff
  a := 0xffffffff00000001000000000000000000000000fffffffffffffffffffffffc
  b := 0x5ac635d8aa3a93e7b3ebbd55769886bc651d06b0cc53b0f63bce3c3e27d2604b
  gx := 0x6b17d1f2e12c4247f8bce6e563a440f277037d812deb33a0f4a13945d898c296
  gy := 0x4fe342e2fe1a7f9b8ee7eb4a7c0f9e162bce33576b315ececbb6406837bf51f5
  n := 0xffffffff00000000ffffffffffffffffbce6faada7179e84f3b9cac2fc632551

def secp384r1 : Curve where
  name := "secp384r1"
  bits := 384
  p := 0xfffffffffffffffffffffffffffffffffffffffffffffffffffffffffffffffeffffffff0000000000000000ffffffff
  a := 0xfffffffffffffffffffffffffffffffffffffffffffffffffffffffffffffffeffffffff0000000000000000fffffffc
  b := 0xb3312fa7e23ee7e4988e056be3f82d19181d9c6efe8141120314088f5013875ac656398d8a2ed19d2a85c8edd3ec2aef
  gx := 0xaa87ca22be8b05378eb1c71ef320ad746e1d3b628ba79b9859f741e082542a385502f25dbf55296c3a545e3872760ab7
  gy := 0x3617de4a96262c6f5d9e98bf9292dc29f8f41dbd289a147ce9da3113b5f0b8c00a60b1ce1d7e819d7a431d7c90ea0e5f
  n := 0xffffffffffffffffffffffffffffffffffffffffffffffffc7634d81f4372ddf581a0db248b0a77aecec196accc52973

def secp521r1 : Curve where
  name := "secp521r1"
  bits := 521
  p := 2 ^ (521 : Nat) - 1
  a := 2 ^ (521 : Nat) - 4
  b := 0x051953eb9618e1c9a1f929a21a0b68540eea2da725b99b315f3b8b489918ef109e156193951ec7e937b1652c0bd3bb1bf073573df883d2c34f1ef451fd46b503f00
  gx := 0x0c6858e06b70404e9cd9e3ecb662395b4429c648139053fb521f828af606b4d3dbaa14b5e77efe75928fe1dc127a2ffa8de3348b3c1856a429bf97e7e31c2e5bd66
  gy := 0x11839296a789a3bc0045c8a5fb42c7d1bd998f54449579b446817afbd17273e662c97ee72995ef42640c550b9013fad0761353c7086a272c24088be94769fd16650
  n := 0x1fffffffffffffffffffffffffffffffffffffffffffffffffffffffffffffffffa51868783bf2f966b7fcc0148f709a5d03bb5c9b8899c47aebb6fb71e91386409

def secp256k1 : Curve where
  name := "secp256k1"
  bits := 256
  p := 0xfffffffffffffffffffffffffffffffffffffffffffffffffffffffefffffc2f
  a := 0
  b := 7
  gx := 0x79be667ef9dcbbac55a06295ce870b07029bfcdb2dce28d959f2815b16f81798
  gy := 0x483ada7726a3c4655da4fbfc0e1108a8fd17b448a68554199c47d08ffb10d4b8
  n := 0xfffffffffffffffffffffffffffffffebaaedce6af48a03bbfd25e8cd0364141

def brainpoolP256r1 : Curve where
  name := "brainpoolP256r1"
  bits := 256
  p := 0xa9fb57dba1eea9bc3e660a909d838d726e3bf623d52620282013481d1f6e5377
  a := 0x7d5a0975fc2c3057eef67530417affe7fb8055c126dc5c6ce94a4b44f330b5d9
  b := 0x26dc5c6ce94a4b44f330b5d9bbd77cbf958416295cf7e1ce6bccdc18ff8c07b6
  gx := 0x8bd2aeb9cb7e57cb2c4b482ffc81b7afb9de27e1e3bd23c23a4453bd9ace3262
  gy := 0x547ef835c3dac4fd97f8461a14611dc9c27745132ded8e545c1d54c72f046997
  n := 0xa9fb57dba1eea9bc3e660a909d838d718c397aa3b561a6f7901e0e82974856a7

def brainpoolP384r1 : Curve where
  name := "brainpoolP384r1"
  bits := 384
  p := 0x8cb91e82a3386d280f5d6f7e50e641df152f7109ed5456b412b1da197fb71123acd3a729901d1a71874700133107ec53
  a := 0x7bc382c63d8c150c3c72080ace05afa0c2bea28e4fb22787139165efba91f90f8aa5814a503ad4eb04a8c7dd22ce2826
  b := 0x04a8c7dd22ce28268b39b55416f0447c2fb77de107dcd2a62e880ea53eeb62d57cb4390295dbc9943ab78696fa504c11
  gx := 0x1d1c64f068cf45ffa2a63a81b7c13f6b8847a3e77ef14fe3db7fcafe0cbd10e8e826e03436d646aaef87b2e247d4af1e
  gy := 0x8abe1d7520f9c2a45cb1eb8e95cfd55262b70b29feec5864e19c054ff99129280e4646217791811142820341263c5315
  n := 0x8cb91e82a3386d280f5d6f7e50e641df152f7109ed5456b31f166e6cac0425a7cf3ab6af6b7fc3103b883202e9046565

def brainpoolP512r1 : Curve where
  name := "brainpoolP512r1"
  bits := 512
  p := 0xaadd9db8dbe9c48b3fd4e6ae33c9fc07cb308db3b3c9d20ed6639cca703308717d4d9b009bc66842aecda12ae6a380e62881ff2f2d82c68528aa6056583a48f3
  a := 0x7830a3318b603b89e2327145ac234cc594cbdd8d3df91610a83441caea9863bc2ded5d5aa8253aa10a2ef1c98b9ac8b57f1117a72bf2c7b9e7c1ac4d77fc94ca
  b := 0x3df91610a83441caea9863bc2ded5d5aa8253aa10a2ef1c98b9ac8b57f1117a72bf2c7b9e7c1ac4d77fc94cadc083e67984050b75ebae5dd2809bd638016f723
  gx := 0x81aee4bdd82ed9645a21322e9c4c6a9385ed9f70b5d916c1b43b62eef4d0098eff3b1f78e2d0d48d50d1687b93b97d5f7c6d5047406a5e688b352209bcb9f822
  gy := 0x7dde385d566332ecc0eabfa9cf7822fdf209f70024a57b1aa000c55b881f8111b2dcde494a5f485e5bca4bd88a2763aed1ca2b2fa8f0540678cd1e0f3ad80892
  n := 0xaadd9db8dbe9c48b3fd4e6ae33c9fc07cb308db3b3c9d20ed6639cca70330870553e5c414ca92619418661197fac10471db1d381085ddaddb58796829ca90069

def available : List Curve :=
  [secp192r1, secp224r1, secp256r1, secp384r1, secp521r1, secp256k1,
    brainpoolP256r1, brainpoolP384r1, brainpoolP512r1]

def ofName? (name : Text) : Option Curve := available.find? (·.name = name)

def coordinateSize (c : Curve) : Nat := (c.bits + 7) / 8

def scalarSize (c : Curve) : Nat := (c.n.log2 + 8) / 8

def contains (c : Curve) (x y : Nat) : Bool :=
  x < c.p && y < c.p && y * y % c.p == (x * x * x + c.a * x + c.b) % c.p

end Curve

def powerMod (modulus base : Nat) : Nat → Nat → Nat
  | 0, _ => 1 % modulus
  | bits + 1, exponent =>
    let root := powerMod modulus base bits (exponent / 2)
    if exponent % 2 = 1 then root * root % modulus * base % modulus else root * root % modulus

def inverseMod (prime a : Nat) : Nat := powerMod prime a (prime.log2 + 1) (prime - 2)

/-- Jacobian coordinates of `(x / z ^ 2, y / z ^ 3)`; the neutral point has `z = 0`. -/
structure Jacobian where
  x : Nat
  y : Nat
  z : Nat

namespace Jacobian

def neutral : Jacobian := ⟨1, 1, 0⟩

private def sub (p a b : Nat) : Nat := (a + (p - b)) % p

def double (c : Curve) (q : Jacobian) : Jacobian :=
  if q.z = 0 || q.y = 0 then neutral
  else
    let yy := q.y * q.y % c.p
    let zz := q.z * q.z % c.p
    let s := 4 * q.x * yy % c.p
    let m := (3 * q.x * q.x + c.a * zz % c.p * zz) % c.p
    let x := sub c.p (m * m % c.p) (2 * s % c.p)
    ⟨x, sub c.p (m * sub c.p s x % c.p) (8 * yy * yy % c.p), 2 * q.y * q.z % c.p⟩

def add (c : Curve) (q r : Jacobian) : Jacobian :=
  if q.z = 0 then r
  else if r.z = 0 then q
  else
    let qzz := q.z * q.z % c.p
    let rzz := r.z * r.z % c.p
    let u := q.x * rzz % c.p
    let s := q.y * rzz % c.p * r.z % c.p
    let h := sub c.p (r.x * qzz % c.p) u
    let d := sub c.p (r.y * qzz % c.p * q.z % c.p) s
    if h = 0 then if d = 0 then double c q else neutral
    else
      let hh := h * h % c.p
      let hhh := hh * h % c.p
      let v := u * hh % c.p
      let x := sub c.p (sub c.p (d * d % c.p) hhh) (2 * v % c.p)
      ⟨x, sub c.p (d * sub c.p v x % c.p) (s * hhh % c.p), q.z * r.z % c.p * h % c.p⟩

def scale (c : Curve) (q : Jacobian) : Nat → Nat → Jacobian
  | 0, _ => neutral
  | bits + 1, factor =>
    let half := double c (scale c q bits (factor / 2))
    if factor % 2 = 1 then add c half q else half

def affine? (c : Curve) (q : Jacobian) : Option (Nat × Nat) :=
  if q.z % c.p = 0 then none
  else
    let inverse := inverseMod c.p q.z
    let square := inverse * inverse % c.p
    some (q.x * square % c.p, q.y * square % c.p * inverse % c.p)

end Jacobian

structure CurvePoint where
  curve : Curve
  x : Nat
  y : Nat
  onCurve : curve.contains x y = true
  deriving DecidableEq

namespace CurvePoint

def ofCoordinates? (c : Curve) (x y : Nat) : Option CurvePoint :=
  if h : c.contains x y = true then some ⟨c, x, y, h⟩ else none

def ofResidues? (c : Curve) (x y : Nat) : Option CurvePoint := ofCoordinates? c (x % c.p) (y % c.p)

def jacobian (q : CurvePoint) : Jacobian := ⟨q.x, q.y, 1⟩

def ofScalar? (c : Curve) (scalar : Nat) : Option CurvePoint := do
  let (x, y) ← (Jacobian.scale c ⟨c.gx, c.gy, 1⟩ (c.n.log2 + 1) (scalar % c.n)).affine? c
  ofCoordinates? c x y

def encode (q : CurvePoint) : Bytes :=
  let size := q.curve.coordinateSize
  4 :: Bytes.ofNat size q.x ++ Bytes.ofNat size q.y

def oddPart : Nat → Nat → Nat × Nat
  | 0, m => (m, 0)
  | fuel + 1, m =>
    if m % 2 = 0 then let (odd, count) := oddPart fuel (m / 2); (odd, count + 1) else (m, 0)

def nonResidue (p : Nat) : Nat → Nat → Nat
  | 0, z => z
  | fuel + 1, z =>
    if powerMod p z (p.log2 + 1) ((p - 1) / 2) = p - 1 then z else nonResidue p fuel (z + 1)

def orderOfTwo (p : Nat) : Nat → Nat → Nat
  | 0, _ => 0
  | fuel + 1, t => if t = 1 then 0 else orderOfTwo p fuel (t * t % p) + 1

/-- Lowers the two-power order of `t = root ^ 2 / a` until it is one. -/
def refineRoot (p : Nat) : Nat → Nat → Nat → Nat → Nat → Nat
  | 0, _, _, _, root => root
  | fuel + 1, m, c, t, root =>
    if t = 1 then root
    else
      let i := orderOfTwo p m t
      let b := powerMod p c (m - i) (2 ^ (m - i - 1))
      let c := b * b % p
      refineRoot p fuel i c (t * c % p) (root * b % p)

def sqrtMod? (p a : Nat) : Option Nat :=
  let bits := p.log2 + 1
  let (odd, count) := oddPart bits (p - 1)
  let root :=
    if count = 1 then powerMod p a bits ((p + 1) / 4)
    else refineRoot p (count + 1) count (powerMod p (nonResidue p 200 2) bits odd)
      (powerMod p a bits odd) (powerMod p a bits ((odd + 1) / 2))
  if root * root % p = a % p then some root else none

def ofParity? (c : Curve) (x : Nat) (odd : Bool) : Option CurvePoint := do
  let root ← sqrtMod? c.p ((x * x * x + c.a * x + c.b) % c.p)
  let y := if (root % 2 = 1) = odd then root else (c.p - root) % c.p
  if (y % 2 = 1) = odd then ofCoordinates? c x y else none

def decode? (c : Curve) : Bytes → Option CurvePoint
  | [] => none
  | form :: body =>
    let size := c.coordinateSize
    if form = 4 then
      if body.length = 2 * size then
        ofCoordinates? c (Bytes.toNat (body.take size)) (Bytes.toNat (body.drop size))
      else none
    else if form = 2 || form = 3 then
      let x := Bytes.toNat body
      if body.length = size && x < c.p then ofParity? c x (form = 3) else none
    else none

end CurvePoint

end LinkedProof

import LinkedProof.Crypto.PrivateKey
import LinkedProof.KeyFile.Fault

/-! Private keys on elliptic curves as elements: the scalar, the curve by its identifier or by its
numbers, and the point. -/
namespace LinkedProof.KeyFile

def curveOids : List (Curve × Bytes) :=
  [(.secp192r1, [0x2A, 0x86, 0x48, 0xCE, 0x3D, 0x03, 0x01, 0x01]),
    (.secp224r1, [0x2B, 0x81, 0x04, 0x00, 0x21]),
    (.secp256r1, [0x2A, 0x86, 0x48, 0xCE, 0x3D, 0x03, 0x01, 0x07]),
    (.secp384r1, [0x2B, 0x81, 0x04, 0x00, 0x22]),
    (.secp521r1, [0x2B, 0x81, 0x04, 0x00, 0x23]),
    (.secp256k1, [0x2B, 0x81, 0x04, 0x00, 0x0A]),
    (.brainpoolP256r1, [0x2B, 0x24, 0x03, 0x03, 0x02, 0x08, 0x01, 0x01, 0x07]),
    (.brainpoolP384r1, [0x2B, 0x24, 0x03, 0x03, 0x02, 0x08, 0x01, 0x01, 0x0B]),
    (.brainpoolP512r1, [0x2B, 0x24, 0x03, 0x03, 0x02, 0x08, 0x01, 0x01, 0x0D])]

def curveOid (c : Curve) : Bytes := (curveOids.lookup c).getD []

def primeFieldOid : Bytes := [0x2A, 0x86, 0x48, 0xCE, 0x3D, 0x01, 0x01]

structure Domain where
  version : Nat
  prime : Option Nat
  a : Bytes
  b : Bytes
  seed : Option Bytes
  base : Bytes
  order : Nat
  cofactor : Option Nat
  deriving DecidableEq

inductive Parameters
  | named (oid : Bytes)
  | implicit
  | explicit (domain : Domain)
  deriving DecidableEq

namespace Domain

open Der Der.Reader

def readField : Reader (Option Nat) := inside .sequence do
  if (← identifier) = primeFieldOid then some <$> natural
  else
    discard element
    return none

def read : Reader Domain := inside .sequence do
  let version ← small
  let prime ← readField
  let (a, b, seed) ← inside .sequence do
    let a ← octets
    let b ← octets
    return (a, b, ← optional .bitString bits)
  let base ← octets
  let order ← natural
  return { version, prime, a, b, seed, base, order, cofactor := ← optional .integer small }

def known : List (Curve × Nat) :=
  [(.secp256r1, 0xc49d360886e704936a6678e1139d26b7819f7e90),
    (.secp384r1, 0xa335926aa319a27a1d00896a6773a4827acdac73),
    (.secp521r1, 0xd09e8800291cb85396cc6717393284aaa0da64ba)]

def seedSize : Nat := 20

def ofCurve (c : Curve) (seed : Option Nat) : Domain :=
  let full := Bytes.ofNat c.coordinateSize
  { version := 1, prime := some c.p, a := full c.a, b := full c.b
    seed := seed.map (Bytes.ofNat seedSize), base := 4 :: full c.gx ++ full c.gy, order := c.n
    cofactor := some 1 }

def curve? (d : Domain) : Option Curve :=
  (known.find? fun (c, seed) => d = ofCurve c none || d = ofCurve c (some seed)).map (·.1)

end Domain

namespace Parameters

open Der Der.Reader

def read : Reader Parameters := do
  match ← next? with
  | some tag =>
    if tag = .objectIdentifier then named <$> identifier
    else if tag = .null then (fun _ => implicit) <$> null
    else if tag = .sequence then explicit <$> Domain.read
    else throw (.unexpectedTag (← element).tag)
  | none => throw (.unexpectedTag (← element).tag)

def curve? : Parameters → Option Curve
  | named oid => (curveOids.find? (·.2 = oid)).map (·.1)
  | implicit => none
  | explicit domain => domain.curve?

end Parameters

structure CurveKey where
  version : Nat
  scalar : Bytes
  parameters : Option Parameters
  point : Option Bytes

namespace CurveKey

def current : Nat := 1

def ofKey (k : PrivateKey) : CurveKey where
  version := current
  scalar := Bytes.ofNat k.curve.scalarSize k.scalar
  parameters := none
  point := some k.point.encode

def write (k : CurveKey) : Bytes :=
  Der.encode .sequence <|
    Der.encode .integer (Der.magnitude k.version)
    ++ Der.encode .octetString k.scalar
    ++ (k.point.map fun q => Der.encode (.place 1) (Der.encode .bitString (0 :: q))).getD []

open Der Der.Reader in
def read : Reader CurveKey := inside .sequence do
  let version ← small
  let scalar ← octets
  let parameters ← optional (.place 0) (inside (.place 0) Parameters.read)
  let point ← optional (.place 1) (inside (.place 1) bits)
  return { version, scalar, parameters, point }

def readPoint? (c : Curve) : Bytes → Option CurvePoint
  | [] => none
  | form :: body =>
    if form = 6 || form = 7 then
      (CurvePoint.decode? c (4 :: body)).filter fun q => q.y % 2 = form.toNat % 2
    else CurvePoint.decode? c (form :: body)

def agrees (key : PrivateKey) (stated : Option Bytes) : Bool :=
  stated.all fun bytes => readPoint? key.curve bytes = some key.point

def unite (outer inner : Option Parameters) : Except Fault Parameters :=
  match outer, inner with
  | some p, some q => if p = q then .ok p else .error .invalidKey
  | some p, none | none, some p => .ok p
  | none, none => .error .invalidKey

def toKey (outer : Option Parameters) (k : CurveKey) : Except Fault PrivateKey := do
  if k.version ≠ current then throw .invalidKey
  let some curve := (← unite outer k.parameters).curve? | throw .unsupported
  if k.scalar.length < curve.scalarSize then throw .shortScalar
  if curve.scalarSize < k.scalar.length then throw .invalidKey
  match PrivateKey.ofScalar? curve (Bytes.toNat k.scalar) with
  | some key => if agrees key k.point then return key else throw .invalidKey
  | none => throw .invalidKey

def keyOf (outer : Option Parameters) (bytes : Bytes) : Except Fault PrivateKey :=
  match Der.Reader.run read bytes with
  | .ok k => k.toKey outer
  | .error fault => .error (.contents fault)

end CurveKey

end LinkedProof.KeyFile

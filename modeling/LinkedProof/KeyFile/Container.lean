import LinkedProof.Crypto.Rsa
import LinkedProof.KeyFile.CurveKey

/-! The container of a private key, with its algorithm in front of it, and the keys of other
algorithms that may be in it. -/
namespace LinkedProof.KeyFile

def curveKeyOid : Bytes := [0x2A, 0x86, 0x48, 0xCE, 0x3D, 0x02, 0x01]
def rsaOid : Bytes := [0x2A, 0x86, 0x48, 0x86, 0xF7, 0x0D, 0x01, 0x01, 0x01]
def rsaPssOid : Bytes := [0x2A, 0x86, 0x48, 0x86, 0xF7, 0x0D, 0x01, 0x01, 0x0A]
def dsaOid : Bytes := [0x2A, 0x86, 0x48, 0xCE, 0x38, 0x04, 0x01]
def dhOid : Bytes := [0x2A, 0x86, 0x48, 0x86, 0xF7, 0x0D, 0x01, 0x03, 0x01]
def dhxOid : Bytes := [0x2A, 0x86, 0x48, 0xCE, 0x3E, 0x02, 0x01]

structure RawKind where
  oid : Bytes
  name : Text
  size : Nat

def rawKinds : List RawKind :=
  [⟨[0x2B, 0x65, 0x6E], "X25519PrivateKey", 32⟩, ⟨[0x2B, 0x65, 0x6F], "X448PrivateKey", 56⟩,
    ⟨[0x2B, 0x65, 0x70], "Ed25519PrivateKey", 32⟩, ⟨[0x2B, 0x65, 0x71], "Ed448PrivateKey", 57⟩]

inductive Loaded
  | curveKey (key : PrivateKey)
  | rsaKey (key : RsaKey)
  | otherKey (kind : Text)

def dsaName : Text := "DSAPrivateKey"
def dhName : Text := "DHPrivateKey"
def rsaName : Text := "RSAPrivateKey"

inductive Algorithm
  | curveKey (parameters : Parameters)
  | rsa
  | number (name : Text)
  | raw (kind : RawKind)
  | other

namespace Algorithm

open Der Der.Reader

def skip : Reader Unit := do
  if !(← get).isEmpty then discard element

def readOf (oid : Bytes) : Reader Algorithm := do
  if oid = curveKeyOid then return .curveKey (← Parameters.read)
  if oid = rsaOid then
    discard (optional .null null)
    return .rsa
  if oid = rsaPssOid then
    discard (optional .sequence element)
    return .rsa
  if oid = dsaOid then
    inside .sequence do
      for _ in List.range 3 do discard natural
    return .number dsaName
  if oid = dhOid then
    inside .sequence do
      discard natural
      discard natural
      discard (optional .integer natural)
    return .number dhName
  if oid = dhxOid then
    inside .sequence do
      for _ in List.range 3 do discard natural
      discard (optional .integer natural)
      discard (optional .sequence element)
    return .number dhName
  match rawKinds.find? (·.oid = oid) with
  | some kind => return .raw kind
  | none =>
    skip
    return .other

def read : Reader Algorithm := inside .sequence do readOf (← identifier)

end Algorithm

structure Container where
  version : Nat
  algorithm : Algorithm
  key : Bytes

namespace Container

def write (k : PrivateKey) : Bytes :=
  Der.encode .sequence <|
    Der.encode .integer [0]
    ++ Der.encode .sequence
        (Der.encode .objectIdentifier curveKeyOid
          ++ Der.encode .objectIdentifier (curveOid k.curve))
    ++ Der.encode .octetString (CurveKey.ofKey k).write

open Der Der.Reader in
def readAttribute : Reader Unit := inside .sequence do
  discard identifier
  inside .set (members element)

open Der Der.Reader in
def read : Reader Container := inside .sequence do
  let version ← small
  let algorithm ← Algorithm.read
  let key ← octets
  discard (optional (.place 0) (inside (.place 0) (members readAttribute)))
  return { version, algorithm, key }

def contents {α : Type} (r : Der.Reader α) (bytes : Bytes) : Except Fault α :=
  (r.run bytes).mapError .contents

open Der.Reader in
def rsaReader : Der.Reader (Nat × RsaKey) := inside .sequence do
  let version ← small
  return (version, ⟨← natural, ← natural, ← natural, ← natural, ← natural, ← natural, ← natural,
    ← natural⟩)

def readRsa (bytes : Bytes) : Except Fault Loaded := do
  let (version, key) ← contents rsaReader bytes
  if version ≠ 0 then throw .invalidKey
  return .rsaKey key

open Der.Reader in
def dsaReader : Der.Reader Nat := inside .sequence do
  let version ← small
  for _ in List.range 5 do discard natural
  return version

def readDsa (bytes : Bytes) : Except Fault Loaded := do
  if (← contents dsaReader bytes) ≠ 0 then throw .invalidKey
  return .otherKey dsaName

def load (c : Container) : Except Fault Loaded := do
  if c.version ≠ 0 then throw .invalidKey
  match c.algorithm with
  | .curveKey parameters => .curveKey <$> CurveKey.keyOf (some parameters) c.key
  | .rsa => readRsa c.key
  | .number name =>
    discard (contents Der.Reader.natural c.key)
    return .otherKey name
  | .raw kind =>
    if (← contents Der.Reader.octets c.key).length = kind.size then return .otherKey kind.name
    else throw .rawLength
  | .other => throw .unsupported

def loadBytes (bytes : Bytes) : Except Fault Loaded := do (← contents read bytes).load

open Der.Reader in
def encryptedReader : Der.Reader Unit := inside .sequence do
  discard Algorithm.read
  discard octets

def checkEncrypted (bytes : Bytes) : Except Fault Unit := contents encryptedReader bytes

end Container

end LinkedProof.KeyFile

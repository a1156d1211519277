import LinkedProof.CurveTable
import LinkedProof.Base64

/-! Public keys on elliptic curves as JSON Web Keys. The members of a key are kept as they were
given, of whatever kind, until the key is put to use. -/
namespace LinkedProof

def Base64.decodeValue : Json → Outcome Bytes
  | .text t => (Base64.decode t).mapError fun fault => .unfit (.base64 fault)
  | .array _ => .error (.wrongKind (.notCharacters "list"))
  | .object members =>
    if members.length % 4 = 0 then .error (.wrongKind (.notCharacters "dict"))
    else .error (.wrongKind (.noPadding "dict"))
  | value => .error (.wrongKind (.noLength value.kindWord))

structure Jwk where
  kty : Json
  crv : Json
  x : Json
  y : Json
  alg : Json
  kid : Json

namespace Jwk

/-- Members that are missing are empty, or null where they are optional. -/
def ofMembers (ms : Members) : Jwk where
  kty := (ms.get? "kty").getD (.text [])
  crv := (ms.get? "crv").getD (.text [])
  x := (ms.get? "x").getD (.text [])
  y := (ms.get? "y").getD (.text [])
  alg := ms.get "alg"
  kid := ms.get "kid"

def ofValue : Json → Outcome Jwk
  | .object ms => .ok (ofMembers ms)
  | value => .error (.wrongKind (.noMember value.kindWord "get"))

def toMembers (k : Jwk) : Members :=
  let optional (name : Text) (value : Json) : Members :=
    if value.isEmpty then [] else [(name, value)]
  let required : Members := [("kty", k.kty), ("crv", k.crv), ("x", k.x), ("y", k.y)]
  required ++ optional "alg" k.alg ++ optional "kid" k.kid

def isCurveKey (k : Jwk) : Bool := k.kty.isText "EC"

def isValid (table : CurveTable) (k : Jwk) : Bool :=
  let isFilled : Json → Bool
    | .text t => !t.isEmpty
    | _ => false
  k.isCurveKey && isFilled k.crv && isFilled k.x && isFilled k.y
    && (table.ofValue k.crv).isOk

/-- The point of a key. Coordinates stand for their residues, so they may be of any length. -/
def point (table : CurveTable) (k : Jwk) : Outcome CurvePoint := do
  if !k.isCurveKey then throw (.unfit (.keyType k.kty))
  let entry ← table.ofValue k.crv
  let x ← Base64.decodeValue k.x
  let y ← Base64.decodeValue k.y
  let curve ← entry.curve.curve
  match CurvePoint.ofResidues? curve (Bytes.toNat x) (Bytes.toNat y) with
  | some q => return q
  | none => throw (.unfit .point)

def ofPoint (table : CurveTable) (q : CurvePoint) (kid : Json) : Outcome Jwk := do
  let entry ← table.ofCurve q.curve.name
  let coordinate (n : Nat) : Outcome Json :=
    match Bytes.ofNat? entry.coordinateSize n with
    | some bytes => .ok (.text (Base64.encode bytes))
    | none => .error (.overflow "int too big to convert")
  return ⟨.text "EC", .text entry.name, ← coordinate q.x, ← coordinate q.y,
    .text entry.algorithm, kid⟩

def fillArray : Json → Json
  | .array items => .array
      (items ++ List.replicate (Base64.missingPadding items.length) (.text ['=']))
  | value => value

/-- What is left of a key once its point was asked for: an array in the place of a coordinate has
been filled up with padding when the coordinate was looked at. -/
def used (table : CurveTable) (k : Jwk) : Jwk :=
  if k.isCurveKey && (table.ofValue k.crv).isOk then
    { k with
      x := fillArray k.x
      y := if (Base64.decodeValue k.x).isOk then fillArray k.y else k.y }
  else k

end Jwk

end LinkedProof

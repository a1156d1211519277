import LinkedProof.Jwk

/-! The forms in which a public key is handed to a verifier. -/
namespace LinkedProof

/-- `bound` is a key that announces itself by one set of members and has its point from elsewhere;
`other` is a value that is no key at all. -/
inductive PublicKey
  | jwk (key : Jwk) (type : Text)
  | encoded (point : Bytes) (curve : Json) (type : Text)
  | bound (key : Jwk) (point : CurvePoint)
  | other (value : Json)

namespace PublicKey

def defaultType : Text := "JsonWebKey2020"

def isEmpty : PublicKey → Bool
  | other value => value.isEmpty
  | _ => false

def isNull : PublicKey → Bool
  | other value => value.isNull
  | _ => false

def decodePoint (entry : CurveEntry) (bytes : Bytes) : Outcome CurvePoint :=
  match bytes with
  | [] => .error (.unfit .noPoint)
  | form :: _ => do
    if !(form = 2 || form = 3 || form = 4) then throw (.unfit .pointForm)
    let curve ← entry.curve.curve
    match CurvePoint.decode? curve bytes with
    | some q => return q
    | none => throw (.unfit .pointData)

/-- Unfit members and curves outside the table make a key unusable; any other failure stays. -/
def unusable : Failure → Failure
  | .proof cause =>
    if cause.family = .unsupportedCurve then .proof (.unusableKey cause.message) else .proof cause
  | failure =>
    if failure.isUnfit then .proof (.unusableKey failure.message) else failure

def point (table : CurveTable) : PublicKey → Outcome CurvePoint
  | jwk key _ => (key.point table).rename unusable
  | encoded bytes curve _ => Outcome.rename unusable do
    let entry ← table.ofValue curve
    decodePoint entry bytes
  | bound _ q => .ok q
  | other value => .error (.proof (.unsupportedKey value.kindWord))

def bytes (table : CurveTable) : PublicKey → Outcome Bytes
  | jwk key _ => CurvePoint.encode <$> key.point table
  | encoded bytes _ _ => .ok bytes
  | bound _ q => .ok q.encode
  | other value => .error (.wrongKind (.noMember value.kindWord "jwk"))

def used (table : CurveTable) : PublicKey → PublicKey
  | jwk key type => jwk (key.used table) type
  | key => key

end PublicKey

end LinkedProof
